import EventRecorder.ThreadTable
import EventRecorder.Watchdog
import Mathlib.Data.List.Nodup
import Mathlib.Data.Nat.Find

/-!
# Who answers the watchdog

A thread that gets the watchdog's signal looks for its own id in `safeguard.tids` and
counts up the keep-alive counter of the slot that holds it. The condition of the search
reads an id before it looks at the bound, so a thread that is not in the table reads the
element behind it. Whatever is there, the search then ends and no counter is touched.

In the tables that restarts of internal threads leave, every slot holds the id of its own
thread, so an alarm in it is an answer of the slot; a thread that a restart has replaced
is in no slot any more, and its alarms are answers of none.
-/

namespace EventRecorder.KeepAlive

open Watchdog (Watch safeguardUpdateKeepAlive)
open ThreadTable (Table Owned initial initial_owned restart_internal threeInternal)

universe u
variable {τ : Type u}

/-- `safeguard.tids` and `safeguard.size`. A position that is not below the size is
behind the table; what is read there can be anything. -/
structure Safeguard (τ : Type u) where
  tids : Nat → τ
  size : Nat

/-- The id is in the table, in some slot below its size. -/
def Listed (safeguard : Safeguard τ) (tid : τ) : Prop :=
  ∃ slot < safeguard.size, safeguard.tids slot = tid

/-- The first slot of the table that holds an id, where the search for it should end. -/
structure FirstSlot (safeguard : Safeguard τ) (tid : τ) (slot : Nat) : Prop where
  inside : slot < safeguard.size
  holds : safeguard.tids slot = tid
  first : ∀ earlier < slot, safeguard.tids earlier ≠ tid

/-- One more answer of a slot: its counter is one higher, and those of the others are as
they were. -/
def answered (watch : Watch) (slot : Nat) : Watch :=
  { watch with keepAlive := fun k half =>
      if k = slot ∧ half.val = 1 then watch.keepAlive k half + 1 else watch.keepAlive k half }

variable [DecidableEq τ]

/-- What the search has done: the positions it has read, in order, and `i`, the one it
ended at. -/
structure Search where
  reads : List Nat
  i : Nat

/-- The loop of `pthread_sigalrm_handler` from a position on. Each evaluation of its
condition begins with a read of `safeguard.tids[i]`. -/
def search (safeguard : Safeguard τ) (tid : τ) (i : Nat) : Search :=
  if safeguard.tids i ≠ tid ∧ i < safeguard.size then
    let rest := search safeguard tid (i + 1)
    ⟨i :: rest.reads, rest.i⟩
  else ⟨[i], i⟩
termination_by safeguard.size - i

/-- `pthread_sigalrm_handler` in the thread `tid`: the positions of `safeguard.tids` that
it reads, and what it leaves of the watchdog's state. -/
def pthreadSigalrmHandler (safeguard : Safeguard τ) (tid : τ) (watch : Watch) :
    List Nat × Watch :=
  let found := search safeguard tid 0
  if found.i = safeguard.size then (found.reads, watch)
  else (found.reads, safeguardUpdateKeepAlive found.i watch)

/-- The handler reads the table only inside, counts up the counter of the first slot that
holds the caller and nothing else, and changes nothing when there is none. -/
structure Attributed (safeguard : Safeguard τ) (tid : τ) (watch : Watch) : Prop where
  safe : ∀ position ∈ (pthreadSigalrmHandler safeguard tid watch).1, position < safeguard.size
  counted : ∀ slot, FirstSlot safeguard tid slot →
    (pthreadSigalrmHandler safeguard tid watch).2 = answered watch slot
  unlisted : ¬ Listed safeguard tid → (pthreadSigalrmHandler safeguard tid watch).2 = watch

variable (safeguard : Safeguard τ) (tid : τ)

/-! ## The search -/

/-- The search goes on to the next position while the id there is another and the bound
has not been reached. -/
theorem search_running (i : Nat) (other : safeguard.tids i ≠ tid) (inside : i < safeguard.size) :
    search safeguard tid i =
      ⟨i :: (search safeguard tid (i + 1)).reads, (search safeguard tid (i + 1)).i⟩ := by
  rw [search, if_pos ⟨other, inside⟩]

/-- The search ends, and has read the position it ends at, because the id is compared
before the bound. -/
theorem search_stopping (i : Nat) (stops : safeguard.tids i = tid ∨ safeguard.size ≤ i) :
    search safeguard tid i = ⟨[i], i⟩ := by
  rw [search, if_neg]
  rintro ⟨other, inside⟩
  rcases stops with same | behind
  · exact other same
  · exact absurd inside (Nat.not_lt_of_le behind)

/-- The search reads every position up to the one it ends at. The induction is on the
number of positions that are left. -/
theorem search_from (left i : Nat)
    (running : ∀ k, i ≤ k → k < i + left → safeguard.tids k ≠ tid ∧ k < safeguard.size)
    (stops : safeguard.tids (i + left) = tid ∨ safeguard.size ≤ i + left) :
    search safeguard tid i = ⟨List.range' i (left + 1), i + left⟩ := by
  induction left generalizing i with
  | zero => exact search_stopping safeguard tid i stops
  | succ left inductionHypothesis =>
    obtain ⟨other, inside⟩ := running i (Nat.le_refl i) (by omega)
    have next : i + (left + 1) = i + 1 + left := by omega
    have rest := inductionHypothesis (i + 1)
      (fun k after before => running k (by omega) (by omega)) (by rwa [next] at stops)
    rw [search_running safeguard tid i other inside, rest, next]
    rfl

/-- The search for a listed id ends at its first slot, having read the slots up to it. -/
theorem search_first (slot : Nat) (first : FirstSlot safeguard tid slot) :
    search safeguard tid 0 = ⟨List.range (slot + 1), slot⟩ := by
  have inside := first.inside
  have whole := search_from safeguard tid slot 0
    (fun k _ before => ⟨first.first k (by omega), by omega⟩)
    (.inl (by rw [Nat.zero_add, first.holds]))
  rwa [Nat.zero_add, ← List.range_eq_range'] at whole

/-- The search for any other id ends behind the table, and has read there, whatever it
finds. -/
theorem search_unlisted (absent : ¬ Listed safeguard tid) :
    search safeguard tid 0 = ⟨List.range (safeguard.size + 1), safeguard.size⟩ := by
  have whole := search_from safeguard tid safeguard.size 0
    (fun k _ before => ⟨fun same => absent ⟨k, by omega, same⟩, by omega⟩)
    (.inr (by omega))
  rwa [Nat.zero_add, ← List.range_eq_range'] at whole

/-! ## The handler -/

/-- An answer counts up one counter, that of the slot it is made for. -/
theorem update_keep_alive_eq (watch : Watch) (slot : Nat) :
    safeguardUpdateKeepAlive slot watch = answered watch slot := by
  have second (half : Fin 2) : half = 1 ↔ half.val = 1 := Fin.ext_iff
  simp only [safeguardUpdateKeepAlive, answered, Watch.put, Watch.counter, Watch.mk.injEq,
    and_self, and_true]
  funext k half
  simp only [second]
  split_ifs with own
  · rw [own.1, (second half).mpr own.2]
  · rfl

/-- For a listed id the handler reads up to its first slot and counts up the counter of
this one. -/
theorem handler_first (watch : Watch) (slot : Nat) (first : FirstSlot safeguard tid slot) :
    pthreadSigalrmHandler safeguard tid watch =
      (List.range (slot + 1), answered watch slot) := by
  rw [pthreadSigalrmHandler, search_first safeguard tid slot first]
  simp only [if_neg (Nat.ne_of_lt first.inside), update_keep_alive_eq]

/-- For any other id the handler reads one position too many and counts nothing. -/
theorem handler_unlisted (watch : Watch) (absent : ¬ Listed safeguard tid) :
    pthreadSigalrmHandler safeguard tid watch = (List.range (safeguard.size + 1), watch) := by
  rw [pthreadSigalrmHandler, search_unlisted safeguard tid absent]
  exact if_pos rfl

/-- A caller that is not in the table reads behind it, so that one that reads only
inside is in it. -/
theorem listed_of_safe (watch : Watch)
    (safe : ∀ position ∈ (pthreadSigalrmHandler safeguard tid watch).1,
      position < safeguard.size) : Listed safeguard tid := by
  by_contra absent
  rw [handler_unlisted safeguard tid watch absent] at safe
  exact Nat.lt_irrefl _ (safe safeguard.size (List.mem_range.mpr (Nat.lt_succ_self _)))

/-- A listed id has a first slot, as its slots have a least one. -/
theorem first_slot_of_listed (listed : Listed safeguard tid) :
    ∃ slot, FirstSlot safeguard tid slot := by
  obtain ⟨inside, holds⟩ := Nat.find_spec listed
  refine ⟨Nat.find listed, inside, holds, ?_⟩
  intro earlier before same
  exact Nat.find_min listed before ⟨Nat.lt_trans before inside, same⟩

/-! ## Alarms between restarts -/

variable {φ : Type}

/-- A thread table as the handler sees it: its ids and its size. -/
def safeguardOf (config : ThreadTable.Config φ) (table : Table φ) : Safeguard Nat :=
  ⟨table.tids, config.size⟩

/-- A restart of the thread in a slot, or an alarm in a thread, which may be one that
the table no longer has. -/
inductive Event where
  | restart (slot : Nat)
  | alarm (tid : Nat)
  deriving DecidableEq, Repr

/-- The thread table and the watchdog, which the handler connects. -/
structure State (φ : Type) where
  table : Table φ
  watch : Watch

/-- The state after an event: a restart changes the table, and an alarm the watchdog's
counters. -/
def next (config : ThreadTable.Config φ) (state : State φ) : Event → State φ
  | .restart slot => { state with table := ThreadTable.next config state.table slot }
  | .alarm tid =>
    { state with watch :=
        (pthreadSigalrmHandler (safeguardOf config state.table) tid state.watch).2 }

/-- The answers in an event: those of the slots whose thread gets the alarm, for the
model of the watchdog. -/
def answers (config : ThreadTable.Config φ) (state : State φ) : Event → List Watchdog.Event
  | .restart _ => []
  | .alarm tid =>
    ((List.range config.size).filter fun slot => state.table.tids slot = tid).map .respond

variable (config : ThreadTable.Config φ) (table : Table φ)

/-- A thread of a table of owned slots is in its slot and no other, so that the search
ends there. -/
theorem owned_first (owned : Owned config (· < config.size) table) (slot : Nat)
    (inside : slot < config.size) :
    FirstSlot (safeguardOf config table) (table.tids slot) slot := by
  refine ⟨inside, rfl, ?_⟩
  intro earlier before same
  have one := owned.distinct earlier slot (Nat.lt_trans before inside) inside same
  exact absurd one (Nat.ne_of_lt before)

/-- The thread that a restart replaces is in no slot of the table after it, while it may
still get an alarm. -/
theorem replaced_unlisted (owned : Owned config (· < config.size) table) (slot : Nat)
    (internal : slot < config.dSize) :
    ¬ Listed (safeguardOf config (ThreadTable.next config table slot)) (table.tids slot) := by
  obtain ⟨⟨after, result, -, stored, -⟩, -⟩ := restart_internal config table slot owned internal
  have inside : slot < config.size := Nat.lt_of_lt_of_le internal (Nat.le_add_right _ _)
  have older := owned.older slot inside
  rintro ⟨other, below, same⟩
  simp only [safeguardOf, ThreadTable.next, result, Option.getD_some, stored,
    Function.update_apply] at same
  split_ifs at same with replaced
  · exact absurd same.symm (Nat.ne_of_lt older)
  · exact replaced (owned.distinct other slot below inside same)

/-- An alarm in the thread of a slot is an answer of this slot only, since no other
holds its id. -/
theorem answers_listed (watch : Watch) (owned : Owned config (· < config.size) table)
    (slot : Nat) (inside : slot < config.size) :
    answers config ⟨table, watch⟩ (.alarm (table.tids slot)) = [.respond slot] := by
  have own : ((List.range config.size).filter fun other => table.tids other = table.tids slot) =
      (List.range config.size).filter (· = slot) := by
    apply List.filter_congr
    intro other member
    have one := owned.distinct other slot (List.mem_range.mp member) inside
    simp only [decide_eq_decide]
    exact ⟨one, fun same => by rw [same]⟩
  have once : (List.range config.size).count slot = 1 :=
    List.nodup_iff_count_eq_one.mp List.nodup_range slot (List.mem_range.mpr inside)
  rw [answers, own, List.filter_eq, once]
  rfl

/-- An alarm in any other thread is an answer of none. -/
theorem answers_unlisted (watch : Watch) (tid : Nat)
    (absent : ¬ Listed (safeguardOf config table) tid) :
    answers config ⟨table, watch⟩ (.alarm tid) = [] := by
  rw [answers, List.map_eq_nil_iff, List.filter_eq_nil_iff]
  intro slot member
  rw [decide_eq_true_eq]
  exact fun same => absent ⟨slot, List.mem_range.mp member, same⟩

/-- What an event leaves of the watchdog's state is what its answers do, which takes the
results about the watchdog to the handler. -/
theorem next_watch (watchdog : Watchdog.Config) (state : State φ) (event : Event)
    (owned : Owned config (· < config.size) state.table) :
    (next config state event).watch =
      Runs.after (Watchdog.next watchdog) state.watch (answers config state event) := by
  cases event with
  | restart slot => rfl
  | alarm tid =>
    by_cases listed : Listed (safeguardOf config state.table) tid
    · obtain ⟨slot, inside, holds⟩ := listed
      obtain rfl : state.table.tids slot = tid := holds
      have first := owned_first config state.table owned slot inside
      rw [next, handler_first _ _ state.watch slot first,
        answers_listed config state.table state.watch owned slot inside,
        ← update_keep_alive_eq]
      rfl
    · rw [next, handler_unlisted _ _ state.watch listed,
        answers_unlisted config state.table state.watch tid listed]
      rfl

/-- In every run of alarms in any threads and restarts of internal ones, the watchdog's
state is that of a run of its own on the answers of the slots. -/
theorem run_watch_answers (watchdog : Watchdog.Config) (state : State φ)
    (owned : Owned config (· < config.size) state.table) (events : List Event)
    (internal : ∀ slot, .restart slot ∈ events → slot < config.dSize) :
    (Runs.after (next config) state events).watch =
      Runs.after (Watchdog.next watchdog) state.watch
        (Runs.emitted (next config) (answers config) state events) := by
  induction events generalizing state with
  | nil => rfl
  | cons event rest inductionHypothesis =>
    have still : Owned config (· < config.size) (next config state event).table := by
      cases event with
      | restart slot =>
        exact (restart_internal config state.table slot owned
          (internal slot List.mem_cons_self)).2
      | alarm tid => exact owned
    rw [Runs.after_cons, Runs.emitted_cons, Runs.after_append,
      ← next_watch config watchdog state event owned]
    exact inductionHypothesis _ still fun slot member =>
      internal slot (List.mem_cons_of_mem _ member)

/-! ## Attribution -/

/-- For every table and every caller the handler attributes the answer as it should, and
reads only inside the table, exactly if the caller is in the table.

Proof: for a listed caller the search ends at its first slot, inside the table; for any
other it ends behind it and has read there. -/
theorem attributed_iff (watch : Watch) :
    Attributed safeguard tid watch ↔ Listed safeguard tid := by
  constructor
  · intro attributed
    exact listed_of_safe safeguard tid watch attributed.safe
  · intro listed
    constructor
    case safe =>
      obtain ⟨slot, first⟩ := first_slot_of_listed safeguard tid listed
      intro position read
      rw [handler_first safeguard tid watch slot first, List.mem_range] at read
      exact Nat.lt_of_le_of_lt (Nat.le_of_lt_succ read) first.inside
    case counted =>
      intro slot first
      rw [handler_first safeguard tid watch slot first]
    case unlisted => exact fun absent => absurd listed absent

/-- The postman that a restart has replaced reads behind the table when it gets the
alarm that was on its way. -/
theorem replaced_postman_reads_behind :
    ¬ Attributed (safeguardOf threeInternal (ThreadTable.next threeInternal
        (initial threeInternal) 0)) ((initial threeInternal).tids 0)
      (Watchdog.start fun _ => 0) := by
  intro attributed
  exact replaced_unlisted threeInternal _ (initial_owned _) 0 (by decide)
    (listed_of_safe _ _ _ attributed.safe)

end EventRecorder.KeepAlive
