import EventRecorder.MailQueue

/-!
# The lock of the mail queue

A queue is initialised with any capacity and growth factor, used, deinitialised and
initialised again. Each of `queue_mail_t_add`, `queue_mail_t_pop` and
`queue_mail_t_reset` takes the mutex and has to release it on every path that returns.

`queue_mail_t_add` has one that does not: a queue without room whose mails fill it from
the beginning, and which has no capacity or no factor to grow by.
-/

namespace EventRecorder.QueueLock

open MailQueue

universe u
variable {α : Type u}

/-- `queue_mail_t_deinit`. The buffer is freed and the members are zero. The mutex is
left as it is. -/
def queueMailTDeinit (queue : Queue α) : Queue α :=
  { queue with buffer := fun _ => none, bytes := 0, capacity := 0, scalar := 0 }

/-- `queue_mail_t_init`: what it returns, and the queue. `mallocp` and
`pthreadMutexInitp` tell whether these calls succeed; after a failure the queue has no
memory and no capacity. -/
def queueMailTInit (size : Nat) (queue : Queue α) (capacity scalar : Nat)
    (mallocp pthreadMutexInitp : Bool) : Nat × Queue α :=
  let empty := { queue with start := 0, end_ := 0 }
  if mallocp then
    if pthreadMutexInitp then (0, MailQueue.queueMailTInit size capacity scalar)
    else (1, queueMailTDeinit empty)
  else (1, { empty with buffer := fun _ => none, bytes := 0 })

/-- A call about a queue: its beginning with some capacity and factor, its end, or an
operation in between. -/
inductive Call (α : Type u) where
  | init (capacity scalar : Nat) (mallocp pthreadMutexInitp : Bool)
  | deinit
  | operate (op : Op α)

/-- The memory of a queue before it is initialised. Nothing that a call does depends on
it, since an operation on it is not allowed. -/
def raw : Queue α := ⟨fun _ => none, 0, 0, 0, 0, 0, false⟩

/-- The queue after a call. There is none before `queue_mail_t_init` has returned 0, nor
after it has returned another value. -/
def next (size : Nat) (state : Option (Queue α)) : Call α → Option (Queue α)
  | .init capacity scalar mallocp pthreadMutexInitp =>
    let (ret, queue) :=
      queueMailTInit size (state.getD raw) capacity scalar mallocp pthreadMutexInitp
    if ret = 0 then some queue else none
  | .deinit => state.map queueMailTDeinit
  | .operate op => state.map fun queue => MailQueue.next size queue op

/-- The stored mails and the indices are as before. An add that is refused has to leave
the queue like this. -/
structure Kept (before after : Queue α) : Prop where
  contents : after.contents = before.contents
  start : after.start = before.start
  end_ : after.end_ = before.end_
  capacity : after.capacity = before.capacity

/-- An operation does not wait for ever, and releases the mutex when it returns. An add that
returns 1 changes nothing. -/
structure Releases (size : Nat) (queue : Queue α) (op : Op α) : Prop where
  starts : queue.locked = false
  unlocked : (MailQueue.next size queue op).locked = false
  unchanged : ∀ item reallocp, op = .add item reallocp → (perform size queue op).ret = 1 →
    Kept queue (MailQueue.next size queue op)

/-- A full queue has a mail taken from it, or a capacity and a factor to grow by. -/
def Growable (queue : Queue α) : Op α → Prop
  | .add _ _ => queue.capacity ≤ queue.end_ → queue.start = 0 →
    queue.capacity ≠ 0 ∧ queue.scalar ≠ 0
  | _ => True

/-- A queue that was not touched is kept, whatever is in it. -/
theorem kept_refl (queue : Queue α) : Kept queue queue := ⟨rfl, rfl, rfl, rfl⟩

/-- An add on a queue that can grow returns with the mutex released, and changes nothing
when it returns 1. -/
theorem add_releases (size : Nat) (queue : Queue α) (item : α) (reallocp : Bool)
    (unlocked : queue.locked = false) (growable : Growable queue (.add item reallocp)) :
    Releases size queue (.add item reallocp) := by
  have performed : perform size queue (.add item reallocp) =
      queueMailTAdd size reallocp queue item := by
    simp [perform, unlocked]
  by_cases full : queue.capacity ≤ queue.end_
  · by_cases first : queue.start = 0
    · obtain ⟨capacity, scalar⟩ := growable full first
      cases reallocp with
      | false =>
        have refused : perform size queue (.add item false) = ⟨1, none, [], queue⟩ := by
          simp [performed, queueMailTAdd, full, first, capacity, scalar]
        refine ⟨unlocked, ?_, fun _ _ _ _ => ?_⟩
        · rw [MailQueue.next, refused]
          exact unlocked
        · rw [MailQueue.next, refused]
          exact kept_refl queue
      | true =>
        have grown : perform size queue (.add item true) =
            ⟨0, none, [⟨queue.end_ * size, size⟩], (queue.grow size).store item⟩ := by
          simp [performed, queueMailTAdd, full, first, capacity, scalar]
        refine ⟨unlocked, ?_, fun _ _ _ failed => ?_⟩
        · rw [MailQueue.next, grown]
          exact unlocked
        · simp [grown] at failed
    · have moved : perform size queue (.add item reallocp) = ⟨0, none,
          queue.compactCopies size ++ [⟨queue.compact.end_ * size, size⟩],
          queue.compact.store item⟩ := by
        simp [performed, queueMailTAdd, full, first]
      refine ⟨unlocked, ?_, fun _ _ _ failed => ?_⟩
      · rw [MailQueue.next, moved]
        exact unlocked
      · simp [moved] at failed
  · have stored : perform size queue (.add item reallocp) =
        ⟨0, none, [⟨queue.end_ * size, size⟩], queue.store item⟩ := by
      simp [performed, queueMailTAdd, full]
    refine ⟨unlocked, ?_, fun _ _ _ failed => ?_⟩
    · rw [MailQueue.next, stored]
      exact unlocked
    · simp [stored] at failed

/-- A pop leaves the mutex as it was before it took it, on the path that delivers a mail
and on the one that has none. -/
theorem pop_locked (size : Nat) (queue : Queue α) :
    (queueMailTPop size queue).queue.locked = queue.locked := by
  unfold queueMailTPop
  split_ifs <;> rfl

/-- Pops and resets return with the mutex released, as all their paths run through the
call that releases it. -/
theorem others_release (size : Nat) (queue : Queue α) (op : Op α)
    (unlocked : queue.locked = false) (other : ∀ item reallocp, op ≠ .add item reallocp) :
    Releases size queue op := by
  refine ⟨unlocked, ?_, fun item reallocp adds => absurd adds (other item reallocp)⟩
  cases op with
  | add item reallocp => exact absurd rfl (other item reallocp)
  | pop =>
    have performed : perform size queue .pop = queueMailTPop size queue := by
      simp [perform, unlocked]
    rw [MailQueue.next, performed, pop_locked, unlocked]
  | reset => simp [MailQueue.next, perform, unlocked, queueMailTReset]

/-- A queue that was initialised has its mutex free, whatever state the one before was
left in. -/
theorem init_unlocked (size : Nat) (queue : Queue α) (capacity scalar : Nat)
    (mallocp pthreadMutexInitp : Bool)
    (succeeds : (queueMailTInit size queue capacity scalar mallocp pthreadMutexInitp).1 = 0) :
    (queueMailTInit size queue capacity scalar mallocp pthreadMutexInitp).2.locked = false := by
  cases mallocp with
  | false => exact absurd succeeds Nat.one_ne_zero
  | true =>
    cases pthreadMutexInitp with
    | false => exact absurd succeeds Nat.one_ne_zero
    | true => rfl

/-- An operation on a queue whose mutex is free releases it exactly if the queue is
growable. -/
theorem releases_iff (size : Nat) (queue : Queue α) (op : Op α)
    (unlocked : queue.locked = false) : Releases size queue op ↔ Growable queue op := by
  cases op with
  | add item reallocp =>
    refine ⟨fun releases full first => ?_, add_releases size queue item reallocp unlocked⟩
    by_contra stuck
    have either : queue.capacity = 0 ∨ queue.scalar = 0 := by omega
    have locked : (MailQueue.next size queue (.add item reallocp)).locked = true := by
      simp [MailQueue.next, perform, unlocked, queueMailTAdd, full, first, either]
    exact absurd (locked.symm.trans releases.unlocked) (by decide)
  | pop => exact iff_of_true (others_release size queue .pop unlocked (by simp)) trivial
  | reset => exact iff_of_true (others_release size queue .reset unlocked (by simp)) trivial

/-- In every run, with any capacities and factors and whatever the allocator does, each
operation releases the mutex and a refused add changes nothing, if and only if each add
finds a growable queue.

Proof: the invariant is that the queue, if there is one, is unlocked. On such a queue
`Releases` and `Growable` are equivalent by `releases_iff`, and an operation that
releases the mutex keeps the invariant, as a successful initialisation does. -/
theorem queue_releases_iff (size : Nat) (calls : List (Call α)) :
    Runs.EveryStep (next size) none calls (fun _ state call =>
        ∀ queue op, state = some queue → call = .operate op → Releases size queue op) ↔
      Runs.EveryStep (next size) none calls fun _ state call =>
        ∀ queue op, state = some queue → call = .operate op → Growable queue op := by
  apply Runs.every_step_iff fun _ state => ∀ queue, state = some queue → queue.locked = false
  · exact nofun
  · intro _ state call free
    constructor
    · intro releases queue op some operates
      exact (releases_iff size queue op (free queue some)).mp (releases queue op some operates)
    · intro growable queue op some operates
      exact (releases_iff size queue op (free queue some)).mpr (growable queue op some operates)
  · intro _ state call free growable after there
    cases call with
    | init capacity scalar mallocp pthreadMutexInitp =>
      simp only [next] at there
      split_ifs at there with succeeds
      obtain rfl := Option.some.inj there
      exact init_unlocked size _ capacity scalar mallocp pthreadMutexInitp succeeds
    | deinit =>
      obtain ⟨queue, some, rfl⟩ := Option.map_eq_some_iff.mp there
      exact free queue some
    | operate op =>
      obtain ⟨queue, some, rfl⟩ := Option.map_eq_some_iff.mp there
      have grows := growable queue op some rfl
      exact ((releases_iff size queue op (free queue some)).mpr grows).unlocked

/-- The first add to a queue of no elements leaves it locked, and no thread gets hold of
the mutex again. -/
theorem empty_queue_locked :
    ¬ Runs.EveryStep (next 256) none
      [.init 0 2 true true, .operate (.add (1 : Nat) true)] fun _ state call =>
        ∀ queue op, state = some queue → call = .operate op → Releases 256 queue op := by
  intro every
  have unlocked := (every [.init 0 2 true true] _ [] rfl _ _ rfl rfl).unlocked
  revert unlocked
  decide

end EventRecorder.QueueLock
