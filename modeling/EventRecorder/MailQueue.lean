import EventRecorder.Fifo
import Mathlib.Algebra.Group.Nat.Defs
import Mathlib.Tactic.Common

/-!
# The lock-based mail queue

`queue_mail_t` keeps mails in the elements from `start` to `end` of one
allocation. An add that finds no room behind `end` moves the mails to the
beginning, or asks the allocator for more when they already are there.

Each operation runs under the mutex, so a run is any sequence of operations of
producers and consumers. The allocator counts bytes and the members count
elements; every copy is recorded by its bytes in the buffer. `size` is the size
of a mail. Elements nothing was written to, and those a smaller allocation lost,
are `none`.
-/

namespace EventRecorder.MailQueue

open Fifo

universe u
variable {α : Type u}

/-- `SIZE_MAX + 1`. Products of a number of elements and their size are taken modulo it,
as everything in `size_t`. -/
def sizeModulus : Nat := 2 ^ 64

/-- `queue_mail_t`. `bytes` is the size of the allocation behind `buffer`, and
`locked` the mutex outside the operations. -/
structure Queue (α : Type u) where
  buffer : Nat → Option α
  bytes : Nat
  start : Nat
  end_ : Nat
  capacity : Nat
  scalar : Nat
  locked : Bool

/-- The bytes of the buffer that a copy reads or writes, as an offset from its beginning
and a length. -/
structure Copy where
  offset : Nat
  length : Nat
  deriving DecidableEq, Repr

/-- What an operation returns and copies, and the queue after it. The mail popped is
optional, because memory may hold none at its place. -/
structure Result (α : Type u) where
  ret : Nat
  item : Option α
  copies : List Copy
  queue : Queue α

/-- `queue_mail_t_init` when `mallocp` and `pthread_mutex_initp` succeed. The product of
capacity and size may wrap, which makes the allocation too small. -/
def queueMailTInit (size capacity scalar : Nat) : Queue α where
  buffer _ := none
  bytes := capacity * size % sizeModulus
  start := 0
  end_ := 0
  capacity := capacity
  scalar := scalar
  locked := false

/-- `queue_mail_t_reset`. The mails stay in memory, and the indices say that there are
none. -/
def queueMailTReset (queue : Queue α) : Queue α := { queue with start := 0, end_ := 0 }

/-- `queue_mail_t_pop`. When the last mail is taken both indices go back to the
beginning, which makes room without a move. -/
def queueMailTPop (size : Nat) (queue : Queue α) : Result α :=
  if queue.end_ ≤ queue.start then ⟨1, none, [], queue⟩
  else
    { ret := 0
      item := queue.buffer queue.start
      copies := [⟨queue.start * size, size⟩]
      queue := if queue.start + 1 = queue.end_ then { queue with start := 0, end_ := 0 }
        else { queue with start := queue.start + 1 } }

/-- The reallocation of a full queue: `reallocp` is given a product of element
counts as a number of bytes. -/
def Queue.grow (size : Nat) (queue : Queue α) : Queue α :=
  let asked := queue.capacity * queue.scalar % sizeModulus
  { queue with
    buffer := fun i => if (i + 1) * size ≤ min queue.bytes asked then queue.buffer i else none
    bytes := asked
    capacity := asked }

/-- The move of the mails to the beginning of the buffer, in one `memmove`: elements
that it does not write keep what they had. -/
def Queue.compact (queue : Queue α) : Queue α :=
  { queue with
    buffer := fun i =>
      if i < queue.end_ - queue.start then queue.buffer (queue.start + i) else queue.buffer i
    end_ := queue.end_ - queue.start
    start := 0 }

/-- The bytes the move reads and writes, which have to lie inside the allocation as much
as those of a copy of one mail. -/
def Queue.compactCopies (size : Nat) (queue : Queue α) : List Copy :=
  [⟨queue.start * size, size * (queue.end_ - queue.start)⟩,
    ⟨0, size * (queue.end_ - queue.start)⟩]

/-- The copy of a mail behind the last one, at the index `end`, which is then one
further. -/
def Queue.store (queue : Queue α) (item : α) : Queue α :=
  { queue with
    buffer := fun i => if i = queue.end_ then some item else queue.buffer i
    end_ := queue.end_ + 1 }

/-- `queue_mail_t_add`; `reallocp` tells whether the allocator has the memory. A
queue that cannot grow is left locked. -/
def queueMailTAdd (size : Nat) (reallocp : Bool) (queue : Queue α) (item : α) : Result α :=
  if queue.capacity ≤ queue.end_ then
    if queue.start = 0 then
      if queue.capacity = 0 ∨ queue.scalar = 0 then
        ⟨1, none, [], { queue with locked := true }⟩
      else if reallocp then
        ⟨0, none, [⟨queue.end_ * size, size⟩], (queue.grow size).store item⟩
      else ⟨1, none, [], queue⟩
    else
      ⟨0, none, queue.compactCopies size ++ [⟨queue.compact.end_ * size, size⟩],
        queue.compact.store item⟩
  else ⟨0, none, [⟨queue.end_ * size, size⟩], queue.store item⟩

/-- An operation of some thread. An add comes with the allocator's answer, should it
have to be asked. -/
inductive Op (α : Type u) where
  | add (item : α) (reallocp : Bool)
  | pop
  | reset

/-- What an operation returns. On a locked queue it waits, which the model shows as an
operation that does nothing. -/
def perform (size : Nat) (queue : Queue α) (op : Op α) : Result α :=
  if queue.locked then ⟨1, none, [], queue⟩
  else
    match op with
    | .add item reallocp => queueMailTAdd size reallocp queue item
    | .pop => queueMailTPop size queue
    | .reset => ⟨0, none, [], queueMailTReset queue⟩

/-- The queue after an operation, as the next thread finds it. -/
def next (size : Nat) (queue : Queue α) (op : Op α) : Queue α := (perform size queue op).queue

/-- What its caller sees of an operation: a mail that was accepted, one that was
delivered, or nothing when the call failed. -/
def event (size : Nat) (queue : Queue α) (op : Op α) : Event α :=
  let result := perform size queue op
  match op with
  | .add item _ => if result.ret = 0 then .added item else .idle
  | .pop => if result.ret = 0 then .taken result.item else .idle
  | .reset => if queue.locked then .idle else .dropped

/-- The mails in the queue, oldest first. An element that nothing was written to is one
of them all the same. -/
def Queue.contents (queue : Queue α) : List (Option α) :=
  (List.range (queue.end_ - queue.start)).map fun i => queue.buffer (queue.start + i)

/-- An add that gets more memory: the mails fill the buffer from its beginning,
and the allocator has what it is asked for. -/
def Grows (queue : Queue α) : Op α → Prop
  | .add _ reallocp => reallocp = true ∧ queue.capacity ≤ queue.end_ ∧ queue.start = 0
  | _ => False

/-- The members are in order, the elements fit the allocation, the queue could
grow, and no thread has left it locked. -/
structure Queue.Formed (size : Nat) (queue : Queue α) : Prop where
  start_le : queue.start ≤ queue.end_
  end_le : queue.end_ ≤ queue.capacity
  fits : queue.capacity * size ≤ queue.bytes
  capacity_pos : 0 < queue.capacity
  scalar_pos : 0 < queue.scalar
  unlocked : queue.locked = false

/-- A copy inside an allocation of so many bytes, up to and including its last. -/
def Copy.Inside (bytes : Nat) (copy : Copy) : Prop := copy.offset + copy.length ≤ bytes

/-- Elements below the capacity lie inside the allocation, because the capacity counts
elements and the allocation their bytes. -/
theorem inside_of_elements {size : Nat} {queue : Queue α} (formed : queue.Formed size)
    (first count : Nat) (below : first + count ≤ queue.capacity) :
    Copy.Inside queue.bytes ⟨first * size, size * count⟩ := by
  have scaled : (first + count) * size ≤ queue.capacity * size := Nat.mul_le_mul_right size below
  have split : (first + count) * size = first * size + size * count := by
    rw [Nat.add_mul, Nat.mul_comm count]
  unfold Copy.Inside
  dsimp only
  exact split ▸ Nat.le_trans scaled formed.fits

/-- A stored mail is the last of the contents; the others keep their places. -/
theorem contents_store (queue : Queue α) (item : α) (ordered : queue.start ≤ queue.end_) :
    (queue.store item).contents = queue.contents ++ [some item] := by
  have more : queue.end_ + 1 - queue.start = queue.end_ - queue.start + 1 := by omega
  have last : queue.start + (queue.end_ - queue.start) = queue.end_ := by omega
  simp only [Queue.contents, Queue.store, more, List.range_succ, List.map_append, List.map_cons,
    List.map_nil, last, ↓reduceIte]
  congr 1
  apply List.map_congr_left
  intro i member
  have inside := List.mem_range.mp member
  rw [if_neg (by omega)]

/-- Moving the mails keeps the contents, since every mail is moved by the same number of
elements as the index that finds it. -/
theorem contents_compact (queue : Queue α) : queue.compact.contents = queue.contents := by
  simp only [Queue.contents, Queue.compact, Nat.sub_zero, Nat.zero_add]
  apply List.map_congr_left
  intro i member
  rw [if_pos (List.mem_range.mp member)]

/-- The first mail and the others, which are the contents once the index `start` is one
further. -/
theorem contents_cons (queue : Queue α) (pending : queue.start < queue.end_) :
    queue.contents = queue.buffer queue.start ::
      { queue with start := queue.start + 1 }.contents := by
  obtain ⟨more, count⟩ : ∃ more, queue.end_ - queue.start = more + 1 :=
    ⟨queue.end_ - queue.start - 1, by omega⟩
  have fewer : queue.end_ - (queue.start + 1) = more := by omega
  simp only [Queue.contents, count, fewer, List.range_succ_eq_map, List.map_cons, Nat.add_zero,
    List.map_map]
  congr 1
  apply List.map_congr_left
  intro i _
  simp [Nat.add_assoc, Nat.add_comm 1]

/-- An operation leaves the members in order and copies inside the buffer, and a
pop is refused only when no mail waits. -/
structure InBounds (size : Nat) (queue : Queue α) (op : Op α) : Prop where
  start_le : (next size queue op).start ≤ (next size queue op).end_
  end_le : (next size queue op).end_ ≤ (next size queue op).capacity
  copies : ∀ copy ∈ (perform size queue op).copies, copy.Inside (next size queue op).bytes
  pops : op = .pop → ((perform size queue op).ret = 0 ↔ queue.contents ≠ [])

/-- What an operation must do on a formed queue: leave one, change the contents by the
rule of its event, and copy inside the buffer only. -/
structure Sound (size : Nat) (queue : Queue α) (op : Op α) : Prop where
  formed : (next size queue op).Formed size
  follows : Follows (event size queue op) queue.contents (next size queue op).contents
  bounds : InBounds size queue op

/-- An operation is sound if what it returns is. The proofs about the operations compute
the result first and then use this. -/
theorem sound_of_result (size : Nat) (queue : Queue α) (op : Op α) (result : Result α)
    (performed : perform size queue op = result) (formed : result.queue.Formed size)
    (follows : Follows (event size queue op) queue.contents result.queue.contents)
    (copies : ∀ copy ∈ result.copies, copy.Inside result.queue.bytes)
    (pops : op = .pop → (result.ret = 0 ↔ queue.contents ≠ [])) : Sound size queue op := by
  subst performed
  exact ⟨formed, follows, formed.start_le, formed.end_le, copies, pops⟩

/-- A queue without mails is formed as well: there is nothing between its indices, and
its allocation is that of before. -/
theorem reset_formed (size : Nat) (queue : Queue α) (formed : queue.Formed size) :
    (queueMailTReset queue).Formed size :=
  ⟨Nat.le_refl _, Nat.zero_le _, formed.fits, formed.capacity_pos, formed.scalar_pos,
    formed.unlocked⟩

/-- An empty queue has no contents, which is what the test in `queue_mail_t_pop` is for. -/
theorem contents_eq_nil (queue : Queue α) :
    queue.contents = [] ↔ queue.end_ ≤ queue.start := by
  simp [Queue.contents, Nat.sub_eq_zero_iff_le]

/-- A pop takes the first mail, if there is one, and gives back the room of a queue that
it has emptied. -/
theorem pop_sound (size : Nat) (queue : Queue α) (formed : queue.Formed size) :
    Sound size queue .pop := by
  have unlocked := formed.unlocked
  have ordered := formed.start_le
  have below := formed.end_le
  by_cases empty : queue.end_ ≤ queue.start
  · have nothing : perform size queue .pop = ⟨1, none, [], queue⟩ := by
      simp [perform, unlocked, queueMailTPop, empty]
    have none : queue.contents = [] := (contents_eq_nil queue).mpr empty
    refine sound_of_result size queue .pop _ nothing formed ?_ ?_ ?_
    · simp [event, nothing, Follows]
    · simp
    · simp [none]
  · have pending : queue.start < queue.end_ := Nat.lt_of_not_le empty
    have some := contents_cons queue pending
    have inside := inside_of_elements formed queue.start 1 (by omega)
    rw [Nat.mul_one] at inside
    by_cases last : queue.start + 1 = queue.end_
    · have popped : perform size queue .pop = ⟨0, queue.buffer queue.start,
          [⟨queue.start * size, size⟩], queueMailTReset queue⟩ := by
        simp [perform, unlocked, queueMailTPop, queueMailTReset, empty, last]
      have drained : { queue with start := queue.start + 1 }.contents = [] :=
        (contents_eq_nil _).mpr (Nat.le_of_eq last.symm)
      refine sound_of_result size queue .pop _ popped (reset_formed size queue formed) ?_ ?_ ?_
      · simp only [event, popped, ↓reduceIte, Follows]
        rw [some, drained]
        rfl
      · simpa [queueMailTReset] using inside
      · simp [some]
    · have popped : perform size queue .pop = ⟨0, queue.buffer queue.start,
          [⟨queue.start * size, size⟩], { queue with start := queue.start + 1 }⟩ := by
        simp [perform, unlocked, queueMailTPop, empty, last]
      have shorter : { queue with start := queue.start + 1 }.Formed size :=
        ⟨pending, below, formed.fits, formed.capacity_pos, formed.scalar_pos, unlocked⟩
      refine sound_of_result size queue .pop _ popped shorter ?_ ?_ ?_
      · simpa [event, popped, Follows] using some
      · simpa using inside
      · simp [some]

/-- A mail is stored behind the others, below the capacity, which is what makes its
bytes part of the allocation. -/
theorem store_sound (size : Nat) (queue : Queue α) (item : α) (formed : queue.Formed size)
    (room : queue.end_ < queue.capacity) :
    (queue.store item).Formed size ∧
      (queue.store item).contents = queue.contents ++ [some item] ∧
      Copy.Inside queue.bytes ⟨queue.end_ * size, size⟩ := by
  have ordered := formed.start_le
  refine ⟨?_, contents_store queue item ordered, ?_⟩
  · exact ⟨Nat.le_succ_of_le ordered, room, formed.fits, formed.capacity_pos, formed.scalar_pos,
      formed.unlocked⟩
  · simpa using inside_of_elements formed queue.end_ 1 room

/-- Moving the mails keeps the queue formed and makes room, and copies inside the
buffer. It is only done when the mails do not begin at its first element. -/
theorem compact_sound (size : Nat) (queue : Queue α) (formed : queue.Formed size)
    (moved : queue.start ≠ 0) :
    queue.compact.Formed size ∧ queue.compact.end_ < queue.capacity ∧
      ∀ copy ∈ queue.compactCopies size, copy.Inside queue.bytes := by
  have ordered := formed.start_le
  have below := formed.end_le
  have positive := formed.capacity_pos
  refine ⟨?_, ?_, ?_⟩
  · refine ⟨Nat.zero_le _, ?_, formed.fits, positive, formed.scalar_pos, formed.unlocked⟩
    simp only [Queue.compact]
    omega
  · simp only [Queue.compact]
    omega
  · intro copy member
    simp only [Queue.compactCopies, List.mem_cons, List.not_mem_nil, or_false] at member
    rcases member with rfl | rfl
    · exact inside_of_elements formed queue.start _ (by omega)
    · simpa using inside_of_elements formed 0 (queue.end_ - queue.start) (by omega)

/-- An add that gets no more memory appends its mail, or refuses it. The cases are those
of the source: room behind the last mail, room in front of the first, and neither. -/
theorem add_sound (size : Nat) (queue : Queue α) (item : α) (reallocp : Bool)
    (formed : queue.Formed size) (room : ¬ Grows queue (.add item reallocp)) :
    Sound size queue (.add item reallocp) := by
  have unlocked := formed.unlocked
  by_cases full : queue.capacity ≤ queue.end_
  · by_cases first : queue.start = 0
    · have without : reallocp = false := by simpa [Grows, full, first] using room
      have able : ¬ (queue.capacity = 0 ∨ queue.scalar = 0) := by
        have capacity := formed.capacity_pos
        have scalar := formed.scalar_pos
        omega
      have refused : perform size queue (.add item reallocp) = ⟨1, none, [], queue⟩ := by
        simp [perform, unlocked, queueMailTAdd, full, first, able, without]
      refine sound_of_result size queue _ _ refused formed ?_ ?_ ?_
      · simp [event, refused, Follows]
      · simp
      · simp
    · obtain ⟨moved, behind, copies⟩ := compact_sound size queue formed first
      obtain ⟨stored, appended, copied⟩ := store_sound size queue.compact item moved behind
      have added : perform size queue (.add item reallocp) = ⟨0, none,
          queue.compactCopies size ++ [⟨queue.compact.end_ * size, size⟩],
          queue.compact.store item⟩ := by
        simp [perform, unlocked, queueMailTAdd, full, first]
      refine sound_of_result size queue _ _ added stored ?_ ?_ ?_
      · simpa [event, added, Follows, contents_compact] using appended
      · simp only [List.mem_append, List.mem_singleton]
        rintro copy (member | rfl)
        · exact copies copy member
        · exact copied
      · simp
  · obtain ⟨stored, appended, copied⟩ :=
      store_sound size queue item formed (Nat.lt_of_not_le full)
    have added : perform size queue (.add item reallocp) = ⟨0, none,
        [⟨queue.end_ * size, size⟩], queue.store item⟩ := by
      simp [perform, unlocked, queueMailTAdd, full]
    refine sound_of_result size queue _ _ added stored ?_ ?_ ?_
    · simpa [event, added, Follows] using appended
    · simp only [List.mem_singleton]
      rintro copy rfl
      exact copied
    · simp

/-- A reset drops every mail at once, which is the one event that items are lost by. -/
theorem reset_sound (size : Nat) (queue : Queue α) (formed : queue.Formed size) :
    Sound size queue .reset := by
  have unlocked := formed.unlocked
  have cleared : perform size queue .reset = ⟨0, none, [], queueMailTReset queue⟩ := by
    simp [perform, unlocked]
  refine sound_of_result size queue .reset _ cleared (reset_formed size queue formed) ?_ ?_ ?_
  · simp [event, unlocked, Follows, queueMailTReset, Queue.contents]
  · simp
  · simp

/-- Every operation that gets no more memory is sound, by cases on what it is. -/
theorem op_sound (size : Nat) (queue : Queue α) (op : Op α) (formed : queue.Formed size)
    (room : ¬ Grows queue op) : Sound size queue op := by
  cases op with
  | add item reallocp => exact add_sound size queue item reallocp formed room
  | pop => exact pop_sound size queue formed
  | reset => exact reset_sound size queue formed

/-- A new queue of at least one element is formed, if the size of its allocation did not
wrap. -/
theorem init_formed (size capacity scalar : Nat) (some : 1 ≤ capacity) (more : 2 ≤ scalar)
    (allocated : capacity * size < sizeModulus) :
    (queueMailTInit size capacity scalar : Queue α).Formed size := by
  refine ⟨Nat.le_refl _, Nat.zero_le _, ?_, some, by exact Nat.lt_of_lt_of_le (by decide) more, rfl⟩
  exact Nat.le_of_eq (Nat.mod_eq_of_lt allocated).symm

/-- A run of operations on a new queue, as the events that the callers see one after
another. -/
def events (size capacity scalar : Nat) (ops : List (Op α)) : List (Event α) :=
  Runs.emitted (next size) (fun queue op => [event size queue op])
    (queueMailTInit size capacity scalar) ops

/-- The queue is first in, first out: every operation stays in bounds, and at
every point the mails taken, followed by those in the queue, are the mails added
and not dropped. -/
def FirstInFirstOut (size capacity scalar : Nat) (ops : List (Op α)) : Prop :=
  Runs.EveryStep (next size) (queueMailTInit size capacity scalar) ops
      (fun _ queue op => InBounds size queue op) ∧
    ∀ before rest, ops = before ++ rest →
      taken (events size capacity scalar before) ++
          (Runs.after (next size) (queueMailTInit size capacity scalar) before).contents =
        (kept (events size capacity scalar before)).map some

/-- A queue that never gets more memory is first in, first out, for any sizes and any
operations.

Proof: formed queues and the account of their events are kept by every sound operation,
which `accounts_run` carries over the run. On a formed queue a sound operation also
copies inside the buffer. -/
theorem queue_fifo (size capacity scalar : Nat) (ops : List (Op α)) (some : 1 ≤ capacity)
    (more : 2 ≤ scalar) (allocated : capacity * size < sizeModulus)
    (room : Runs.EveryStep (next size) (queueMailTInit size capacity scalar) ops
      fun _ queue op => ¬ Grows queue op) :
    FirstInFirstOut size capacity scalar ops := by
  have account := accounts_run (event size) Queue.contents (Queue.Formed size)
    (fun queue op => ¬ Grows queue op) (init_formed size capacity scalar some more allocated)
    (by simp [Queue.contents, queueMailTInit])
    (fun queue op formed roomy =>
      ⟨(op_sound size queue op formed roomy).formed, (op_sound size queue op formed roomy).follows⟩)
    ops room
  constructor
  · intro before op rest split
    obtain ⟨formed, _⟩ := account before (op :: rest) split
    exact (op_sound size _ op formed (room before op rest split)).bounds
  · intro before rest split
    exact (account before rest split).2

/-- A queue of two that is drained in between takes any number of mails: here the third
finds room because the first has left. -/
theorem two_mails_fifo :
    FirstInFirstOut 256 2 2 [.add 1 true, .add 2 true, .pop, .add (3 : Nat) true] := by
  apply queue_fifo 256 2 2 _ (by decide) (by decide) (by decide)
  simp [Runs.every_step_cons, Runs.every_step_nil, Grows, next, perform, queueMailTInit,
    queueMailTAdd, queueMailTPop, Queue.store]

/-- The second mail of a queue of one is copied behind the two bytes that the
allocator was asked for. -/
theorem grown_queue_overflows :
    ¬ FirstInFirstOut 256 1 2 [.add (1 : Nat) true, .add 2 true] := by
  rintro ⟨bounds, _⟩
  have copies := (bounds [.add 1 true] (.add 2 true) [] rfl).copies ⟨256, 256⟩
  simp [Runs.after, next, perform, queueMailTInit, queueMailTAdd, Queue.store, Queue.grow,
    Copy.Inside, sizeModulus] at copies

end EventRecorder.MailQueue
