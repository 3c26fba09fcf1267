import EventRecorder.Runs
import Mathlib.Tactic.Common

/-!
# The thread table of the safeguard

`safeguard_init_threads` starts the internal threads with the data kept for them
and the processes with their mailboxes. The watchdog cancels a thread and starts
its function again through `safeguard_restart_thread`.

A configuration is the two lists of functions and the number of mailboxes that
the internal safety thread takes (`safety_box`); `funcs` is the first list
followed by the second, and `tids` has as many elements. An access outside a
table has no result. Threads are known by their ids, which are never given twice.
-/

namespace EventRecorder.ThreadTable

variable {φ : Type}

/-- What `safeguard_init` is compiled with: the functions of the internal threads and of
the processes, and whether safety has a box as an internal thread. -/
structure Config (φ : Type) where
  df : List φ
  processes : List φ
  safetyBox : Nat

/-- `d_size`, the number of internal threads. -/
def Config.dSize (config : Config φ) : Nat := config.df.length

/-- `box_offset`, the first of the boxes that processes get. -/
def Config.boxOffset (config : Config φ) : Nat := 2 + config.safetyBox

/-- `safeguard.funcs`, the internal threads in front. -/
def Config.funcs (config : Config φ) : List φ := config.df ++ config.processes

/-- `safeguard.size`, the slots of the table. -/
def Config.size (config : Config φ) : Nat := config.dSize + config.processes.length

/-- `post_office.b_size` after `post_office_init`, the number of boxes. -/
def Config.bSize (config : Config φ) : Nat := config.size - config.dSize + 1 + config.safetyBox + 1

/-- The argument of a thread: an element of `d`, or the address of a mailbox. -/
inductive Arg where
  | data (i : Nat)
  | box (i : Nat)
  deriving DecidableEq, Repr

/-- `safeguard.tids`, and for each thread id what the thread runs. New threads get ids
that were never used. -/
structure Table (φ : Type) where
  tids : Nat → Nat
  threads : Nat → Option (φ × Arg)
  fresh : Nat

/-- What the thread in a slot runs, if it was not cancelled. -/
def Table.runs (table : Table φ) (slot : Nat) : Option (φ × Arg) := table.threads (table.tids slot)

/-- `pthread_cancel (tids[slot])`, which leaves the id in its slot. -/
def Table.cancel (table : Table φ) (slot : Nat) : Table φ :=
  { table with threads := Function.update table.threads (table.tids slot) none }

/-- `pthread_create (&tids[slot], NULL, func, arg)`, which puts a new id in the slot. -/
def Table.create (table : Table φ) (slot : Nat) (func : φ) (arg : Arg) : Table φ where
  tids := Function.update table.tids slot table.fresh
  threads := Function.update table.threads table.fresh (some (func, arg))
  fresh := table.fresh + 1

/-- `d[i]`, which is not there for an index behind the internal threads. -/
def Config.data (config : Config φ) (i : Nat) : Option Arg :=
  if i < config.dSize then some (.data i) else none

/-- Cancel the thread in a slot of the table. A slot behind it cannot be read. -/
def cancelAt (config : Config φ) (slot : Nat) (table : Table φ) : Option (Table φ) :=
  if slot < config.size then some (table.cancel slot) else none

/-- Start the function of a slot in it, if the slot has one. -/
def createAt (config : Config φ) (slot : Nat) (arg : Arg) (table : Table φ) : Option (Table φ) :=
  config.funcs[slot]?.map fun func => table.create slot func arg

/-- `threadsc (funcs + d_size, tids + d_size, N, boxes + offset)`, which starts the
processes. -/
def threadsc (config : Config φ) (count offset : Nat) (table : Table φ) : Option (Table φ) :=
  (List.range count).foldlM
    (fun table i => createAt config (config.dSize + i) (.box (offset + i)) table) table

/-- `threadsr (funcs + d_size, tid, tids + d_size, N, boxes + offset)`, whose positions
are counted behind the internal threads. -/
def threadsr (config : Config φ) (tid offset : Nat) (table : Table φ) : Option (Table φ) := do
  let table ← cancelAt config (config.dSize + tid) table
  createAt config (config.dSize + tid) (.box (offset + (tid - 1))) table

/-- The table before any thread is started. -/
def Table.empty : Table φ := ⟨fun _ => 0, fun _ => none, 0⟩

/-- `safeguard_init_threads`: the internal threads one by one, and then the processes. -/
def safeguardInitThreads (config : Config φ) : Option (Table φ) := do
  let table ← (List.range config.dSize).foldlM
    (fun table i => do createAt config i (← config.data i) table) Table.empty
  threadsc config (config.bSize - config.boxOffset) config.boxOffset table

/-- `safeguard_restart_thread`. Whether the slot is that of a process is decided by a
comparison with `d_size`. -/
def safeguardRestartThread (config : Config φ) (tid : Nat) (table : Table φ) :
    Option (Table φ) :=
  if config.dSize < tid then threadsr config tid 2 table
  else do
    let table ← cancelAt config tid table
    createAt config tid (← config.data tid) table

/-- The argument that initialisation gives the thread of a slot. -/
def Config.firstArg (config : Config φ) (slot : Nat) : Arg :=
  if slot < config.dSize then .data slot else .box (config.boxOffset + (slot - config.dSize))

/-- What initialisation starts in a slot, which is what a restart should start again. -/
def Config.first (config : Config φ) (slot : Nat) : Option (φ × Arg) :=
  config.funcs[slot]?.map fun func => (func, config.firstArg slot)

/-- Some slots run what initialisation starts in them, each in a thread of its own. -/
structure Owned (config : Config φ) (slots : Nat → Prop) (table : Table φ) : Prop where
  runs : ∀ slot, slots slot → table.runs slot = config.first slot
  older : ∀ slot, slots slot → table.tids slot < table.fresh
  distinct : ∀ slot other, slots slot → slots other → table.tids slot = table.tids other →
    slot = other

/-- What holds of some slots holds of fewer. -/
theorem Owned.mono {config : Config φ} {slots fewer : Nat → Prop} {table : Table φ}
    (owned : Owned config slots table) (among : ∀ slot, fewer slot → slots slot) :
    Owned config fewer table :=
  ⟨fun slot member => owned.runs slot (among slot member),
    fun slot member => owned.older slot (among slot member),
    fun slot other member otherMember =>
      owned.distinct slot other (among slot member) (among other otherMember)⟩

/-- The slot of a new thread, and the slots it leaves as they were. -/
theorem create_tids (table : Table φ) (slot other : Nat) (func : φ) (arg : Arg) :
    (table.create slot func arg).tids other =
      if other = slot then table.fresh else table.tids other := Function.update_apply ..

/-- The slot of a new thread runs what it was started with, and the others run on in
theirs. -/
theorem create_runs (table : Table φ) (slot other : Nat) (func : φ) (arg : Arg)
    (older : other ≠ slot → table.tids other < table.fresh) :
    (table.create slot func arg).runs other =
      if other = slot then some (func, arg) else table.runs other := by
  unfold Table.runs
  rw [create_tids]
  split_ifs with same
  · exact Function.update_self ..
  · exact Function.update_of_ne (Nat.ne_of_lt (older same)) ..

/-- A slot in which its function is started with its first argument is owned
besides the others. -/
theorem create_owned (config : Config φ) (slots : Nat → Prop) (slot : Nat) (func : φ)
    (table : Table φ) (owned : Owned config slots table)
    (found : config.funcs[slot]? = some func) :
    Owned config (fun other => other = slot ∨ slots other)
      (table.create slot func (config.firstArg slot)) := by
  have first : config.first slot = some (func, config.firstArg slot) := by
    rw [Config.first, found]
    rfl
  have earlier : ∀ other, other = slot ∨ slots other → other ≠ slot → slots other :=
    fun other member different => member.resolve_left different
  refine ⟨?_, ?_, ?_⟩
  · intro other member
    rw [create_runs _ _ _ _ _ fun different => owned.older other (earlier other member different)]
    split_ifs with same
    · rw [same, first]
    · exact owned.runs other (earlier other member same)
  · intro other member
    rw [create_tids]
    split_ifs with same
    · exact Nat.lt_succ_self _
    · exact Nat.lt_succ_of_lt (owned.older other (earlier other member same))
  · intro left right leftMember rightMember same
    rw [create_tids, create_tids] at same
    split_ifs at same with leftSlot rightSlot rightSlot
    · exact leftSlot.trans rightSlot.symm
    · have older := owned.older right (earlier right rightMember rightSlot)
      omega
    · have older := owned.older left (earlier left leftMember leftSlot)
      omega
    · exact owned.distinct left right (earlier left leftMember leftSlot)
        (earlier right rightMember rightSlot) same

/-- Cancelling the thread of a slot leaves the other slots owned. -/
theorem cancel_owned (config : Config φ) (slots : Nat → Prop) (slot : Nat) (table : Table φ)
    (owned : Owned config slots table) (member : slots slot) :
    Owned config (fun other => slots other ∧ other ≠ slot) (table.cancel slot) := by
  refine ⟨?_, ?_, ?_⟩
  · rintro other ⟨otherMember, different⟩
    have apart : table.tids other ≠ table.tids slot := fun same =>
      different (owned.distinct other slot otherMember member same)
    have kept : (table.cancel slot).runs other = table.runs other := Function.update_of_ne apart ..
    rw [kept]
    exact owned.runs other otherMember
  · rintro other ⟨otherMember, _⟩
    exact owned.older other otherMember
  · rintro left right ⟨leftMember, _⟩ ⟨rightMember, _⟩ same
    exact owned.distinct left right leftMember rightMember same

/-- A loop that starts the slots from a base on, in order, owns them. -/
theorem loop_owned (config : Config φ) (base count : Nat) (table : Table φ)
    (body : Table φ → Nat → Option (Table φ))
    (starts : ∀ i < count, ∀ table,
      body table i = createAt config (base + i) (config.firstArg (base + i)) table)
    (inside : base + count ≤ config.size) (owned : Owned config (· < base) table) :
    ∃ started, (List.range count).foldlM body table = some started ∧
      Owned config (· < base + count) started := by
  induction count with
  | zero => exact ⟨table, rfl, owned⟩
  | succ count inductionHypothesis =>
    obtain ⟨before, loop, owns⟩ := inductionHypothesis
      (fun i below => starts i (Nat.lt_succ_of_lt below)) (by omega)
    have length : config.funcs.length = config.size := List.length_append
    obtain ⟨func, found⟩ : ∃ func, config.funcs[base + count]? = some func :=
      ⟨_, List.getElem?_eq_getElem (by omega)⟩
    refine ⟨before.create (base + count) func (config.firstArg (base + count)), ?_, ?_⟩
    · rw [List.range_succ, List.foldlM_append, loop]
      simp [starts count (Nat.lt_succ_self _), createAt, found]
    · refine (create_owned config _ _ func before owns found).mono ?_
      intro other below
      omega

/-- Initialisation succeeds, and every slot runs what it starts there. -/
theorem init_owned (config : Config φ) :
    ∃ table, safeguardInitThreads config = some table ∧ Owned config (· < config.size) table := by
  have none : Owned config (· < 0) Table.empty :=
    ⟨fun _ below => absurd below (Nat.not_lt_zero _),
      fun _ below => absurd below (Nat.not_lt_zero _),
      fun _ _ below => absurd below (Nat.not_lt_zero _)⟩
  obtain ⟨internal, internalLoop, owned⟩ := loop_owned config 0 config.dSize Table.empty
    (fun table i => do createAt config i (← config.data i) table)
    (fun i below table => by simp [Config.data, Config.firstArg, below])
    (by simp [Config.size]) none
  have count : config.bSize - config.boxOffset = config.processes.length := by
    simp only [Config.bSize, Config.boxOffset, Config.size]
    omega
  rw [Nat.zero_add] at owned
  obtain ⟨started, processLoop, owns⟩ := loop_owned config config.dSize config.processes.length
    internal (fun table i => createAt config (config.dSize + i) (.box (config.boxOffset + i)) table)
    (fun i _ table => by rw [Config.firstArg, if_neg (by omega), Nat.add_sub_cancel_left])
    (Nat.le_refl _) owned
  refine ⟨started, ?_, owns⟩
  rw [safeguardInitThreads, internalLoop, Option.bind_eq_bind, Option.bind_some, count]
  exact processLoop

/-- The table that initialisation leaves. -/
def initial (config : Config φ) : Table φ := (safeguardInitThreads config).getD Table.empty

/-- Every slot of it runs what it should. -/
theorem initial_owned (config : Config φ) : Owned config (· < config.size) (initial config) := by
  obtain ⟨table, started, owned⟩ := init_owned config
  rw [initial, started]
  exact owned

/-- A restart of a slot that does what it should: its tables are only accessed
inside, it cancels the thread in the slot, stores the id of the new one there and
nowhere else, starts what initialisation started in the slot, and leaves every
slot running what initialisation started in it. -/
def RestartExact (config : Config φ) (table : Table φ) (slot : Nat) : Prop :=
  ∃ after, safeguardRestartThread config slot table = some after ∧
    after.threads (table.tids slot) = none ∧
    after.tids = Function.update table.tids slot table.fresh ∧
    after.threads table.fresh = (initial config).runs slot ∧
    ∀ other < config.size, after.runs other = (initial config).runs other

/-- The table after a restart, or as it was when the restart has no result. -/
def next (config : Config φ) (table : Table φ) (slot : Nat) : Table φ :=
  (safeguardRestartThread config slot table).getD table

/-- A restart of an internal thread does what it should, and leaves every slot owned. -/
theorem restart_internal (config : Config φ) (table : Table φ) (slot : Nat)
    (owned : Owned config (· < config.size) table) (internal : slot < config.dSize) :
    RestartExact config table slot ∧ Owned config (· < config.size) (next config table slot) := by
  have inside : slot < config.size := Nat.lt_of_lt_of_le internal (Nat.le_add_right _ _)
  have length : config.funcs.length = config.size := List.length_append
  obtain ⟨func, found⟩ : ∃ func, config.funcs[slot]? = some func :=
    ⟨_, List.getElem?_eq_getElem (by omega)⟩
  have arg : config.firstArg slot = .data slot := if_pos internal
  have cancelled := cancel_owned config _ slot table owned inside
  have created : Owned config (· < config.size)
      ((table.cancel slot).create slot func (config.firstArg slot)) :=
    (create_owned config _ slot func _ cancelled found).mono
      fun other below => (eq_or_ne other slot).imp_right (⟨below, ·⟩)
  have result : safeguardRestartThread config slot table =
      some ((table.cancel slot).create slot func (config.firstArg slot)) := by
    simp [safeguardRestartThread, Nat.not_lt_of_lt internal, cancelAt, inside, Config.data, internal,
      createAt, found, arg]
  have first := initial_owned config
  refine ⟨⟨_, result, ?_, rfl, ?_, ?_⟩, ?_⟩
  · have older : table.tids slot ≠ table.fresh := Nat.ne_of_lt (owned.older slot inside)
    have kept : ((table.cancel slot).create slot func (config.firstArg slot)).threads
        (table.tids slot) = (table.cancel slot).threads (table.tids slot) :=
      Function.update_of_ne older ..
    rw [kept]
    exact Function.update_self ..
  · rw [first.runs slot inside, Config.first, found]
    exact Function.update_self ..
  · intro other below
    rw [created.runs other below, first.runs other below]
  · rw [next, result]
    exact created

/-- A restart of any other slot does not. The first process is restarted with an
element behind `d`; the position of a later one is counted from the end of the
internal threads twice. -/
theorem restart_other (config : Config φ) (table : Table φ) (slot : Nat)
    (owned : Owned config (· < config.size) table) (other : config.dSize ≤ slot) :
    ¬ RestartExact config table slot := by
  rintro ⟨after, result, _, stored, started, _⟩
  by_cases first : slot = config.dSize
  · simp [safeguardRestartThread, first, Config.data] at result
  · have later : config.dSize < slot := Nat.lt_of_le_of_ne other (Ne.symm first)
    simp only [safeguardRestartThread, if_pos later, threadsr, Option.bind_eq_bind] at result
    obtain ⟨cancelled, cancels, result⟩ := Option.bind_eq_some_iff.mp result
    obtain ⟨func, _, rfl⟩ := Option.map_eq_some_iff.mp result
    simp only [cancelAt] at cancels
    split_ifs at cancels with inside
    obtain rfl := Option.some.inj cancels
    have below : slot < config.size := by omega
    by_cases internal : config.dSize = 0
    · -- Without internal threads the position is right, but not the mailbox.
      rw [(initial_owned config).runs slot below, Config.first, Config.firstArg,
        if_neg (by omega)] at started
      obtain ⟨_, _, same⟩ := Option.map_eq_some_iff.mp
        (started.symm.trans (Function.update_self ..))
      have boxes := Arg.box.inj (Prod.mk.inj same).2
      simp only [Config.boxOffset] at boxes
      omega
    · have position := congrFun stored slot
      have apart : slot ≠ config.dSize + slot := by omega
      have kept : ((table.cancel (config.dSize + slot)).create (config.dSize + slot) func
          (.box (2 + (slot - 1)))).tids slot = table.tids slot := Function.update_of_ne apart ..
      rw [kept, Function.update_self] at position
      have older := owned.older slot below
      omega

/-- In every sequence of restarts, each does what it should if and only if only internal
threads are restarted.

Proof: that every slot is owned is the invariant. It makes a restart of an internal
thread exact, which keeps it; a restart of any other slot reads behind the data or the
table, or starts a thread elsewhere. -/
theorem restarts_exact_iff (config : Config φ) (slots : List Nat) :
    Runs.EveryStep (next config) (initial config) slots
        (fun _ table slot => RestartExact config table slot) ↔
      ∀ slot ∈ slots, slot < config.dSize := by
  have steps : Runs.EveryStep (next config) (initial config) slots
        (fun _ table slot => RestartExact config table slot) ↔
      Runs.EveryStep (next config) (initial config) slots fun _ _ slot => slot < config.dSize := by
    apply Runs.every_step_iff fun _ table => Owned config (· < config.size) table
    · exact initial_owned config
    · intro _ table slot owned
      constructor
      · intro exact
        exact Nat.lt_of_not_le fun other => restart_other config table slot owned other exact
      · intro internal
        exact (restart_internal config table slot owned internal).1
    · intro _ table slot owned internal
      exact (restart_internal config table slot owned internal).2
  rw [steps]
  constructor
  · intro every slot member
    obtain ⟨before, rest, split⟩ := List.append_of_mem member
    exact every before slot rest split
  · intro all before slot rest split
    exact all slot (split ▸ List.mem_append_right _ List.mem_cons_self)

/-- The configuration with three internal threads, by their names. -/
def threeInternal : Config String where
  df := ["postman", "broker", "logger"]
  processes := ["ui", "cellular", "safety"]
  safetyBox := 0

/-- Restarting the user interface reads behind the data of the internal threads. -/
theorem ui_restart_undefined :
    safeguardRestartThread threeInternal 3 (initial threeInternal) = none ∧
      ¬ RestartExact threeInternal (initial threeInternal) 3 :=
  ⟨rfl, restart_other _ _ _ (initial_owned _) (by decide)⟩

end EventRecorder.ThreadTable
