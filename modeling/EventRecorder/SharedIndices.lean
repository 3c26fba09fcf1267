import EventRecorder.SharedMemory

/-!
# The indices in shared memory

Every access is inside its array as long as no message is added to a full array of
messages and no button is clicked while an answer waits to be collected. A message
added to a full array goes into the element behind the last one, which is the answer.
-/

namespace EventRecorder.SharedIndices

open SharedMemory

/-- A step that keeps the indices ordered, stays inside both arrays, and overwrites the
last message when the array is full. -/
structure InRange (sys : System) (op : Op) : Prop where
  ordered : (next sys op).mem.indexE ≤ (next sys op).mem.index
  msgs : ∀ i, .msgs i ∈ accesses sys op → i < shmDefaultSize
  assist : ∀ i, .assist i ∈ accesses sys op → i < assistSize
  full : ∀ msg, addedMsg sys op = some msg → sys.mem.index ≠ sys.mem.indexE →
    sys.mem.index = shmDefaultSize →
      (next sys op).mem.cells = Function.update sys.mem.cells (shmDefaultSize - 1) msg

/-- A message is added when the display has caught up or the array has room, and a
button clicked when no answer waits. -/
structure Allowed (sys : System) (op : Op) : Prop where
  room : (addedMsg sys op).isSome = true →
    sys.mem.index = sys.mem.indexE ∨ sys.mem.index < shmDefaultSize
  answered : ∀ yes, op = .click yes → sys.answerp = true → sys.mem.indexAssist = 0

/-- What holds at every point of a run of allowed steps: the indices are in order and
inside their arrays. -/
structure Indexed (sys : System) : Prop where
  ordered : Ordered sys.mem
  assist : sys.mem.indexAssist ≤ assistSize

/-- A step without an access out of range is allowed, as what is not allowed accesses
the element behind an array. -/
theorem allowed_of_range (sys : System) (op : Op) (range : InRange sys op) : Allowed sys op := by
  constructor
  · intro adds
    obtain ⟨msg, added⟩ := Option.isSome_iff_exists.mp adds
    have position := range.msgs (addPosition sys.mem) (by simp [accesses, added])
    unfold addPosition at position
    split_ifs at position with caughtUp
    · exact .inl caughtUp
    · exact .inr position
  · rintro yes rfl visible
    have position := range.assist sys.mem.indexAssist (by simp [accesses, reads, visible])
    exact Nat.lt_one_iff.mp position

/-- The element an allowed step adds to is one of the array. -/
theorem add_position_lt (sys : System) (op : Op) (allowed : Allowed sys op) (msg : Msg)
    (added : addedMsg sys op = some msg) : addPosition sys.mem < shmDefaultSize := by
  have room := allowed.room (by rw [added]; rfl)
  unfold addPosition
  split_ifs with caughtUp
  · decide
  · exact room.resolve_left caughtUp

/-- An allowed step keeps the indices in range, by cases on the step. -/
theorem moves_indexed (sys after : System) (op : Op) (indexed : Indexed sys)
    (allowed : Allowed sys op) (moves : Moves sys op after) : Indexed after := by
  obtain ⟨ordered, assist⟩ := indexed
  have fewer : sys.mem.indexAssist - 1 ≤ assistSize := Nat.le_trans (Nat.sub_le _ _) assist
  cases moves with
  | notice mail => exact ⟨add_ordered _ _ ordered, by rwa [add_index_assist]⟩
  | asks mail =>
    have added := add_ordered sys.mem (mail.message .assistance) ordered
    exact ⟨⟨added.caught, added.inside⟩, Nat.zero_le _⟩
  | reacts _ _ msg =>
    refine ⟨add_ordered _ msg ⟨ordered.caught, ordered.inside⟩, ?_⟩
    simpa [reacted] using fewer
  | ignores => exact ⟨⟨ordered.caught, ordered.inside⟩, fewer⟩
  | shows waiting =>
    have caught := ordered.caught
    exact ⟨⟨by simp only; omega, ordered.inside⟩, assist⟩
  | prompts waiting =>
    have caught := ordered.caught
    exact ⟨⟨by simp only; omega, ordered.inside⟩, assist⟩
  | clicks yes visible =>
    have first := allowed.answered yes rfl visible
    exact ⟨⟨ordered.caught, ordered.inside⟩, by simp [first, assistSize, shmDefaultSize]⟩
  | _ => exact ⟨ordered, assist⟩

/-- The element of the messages that a step reads or writes: the one to be shown next,
or the one a message is added to. -/
theorem msgs_accessed (sys : System) (op : Op) (i : Nat) (member : .msgs i ∈ accesses sys op) :
    sys.mem.index ≠ sys.mem.indexE ∧ i = sys.mem.indexE ∨
      ∃ msg, addedMsg sys op = some msg ∧ i = addPosition sys.mem := by
  rcases List.mem_append.mp member with read | written
  · left
    cases op with
    | notif =>
      simp only [reads] at read
      split_ifs at read with caughtUp
      · exact absurd read List.not_mem_nil
      · exact ⟨caughtUp, Access.msgs.inj (List.mem_singleton.mp read)⟩
    | receive => exact absurd read List.not_mem_nil
    | collect =>
      simp only [reads] at read
      split_ifs at read <;> simp at read
    | click =>
      simp only [reads] at read
      split_ifs at read <;> simp at read
  · right
    obtain ⟨msg, added, same⟩ := Option.map_eq_some_iff.mp (Option.mem_toList.mp written)
    exact ⟨msg, added, (Access.msgs.inj same).symm⟩

/-- The element of the answers that a step reads or writes: the one a click is written
to, or the last one given. -/
theorem assist_accessed (sys : System) (op : Op) (i : Nat) (member : .assist i ∈ accesses sys op) :
    (∃ yes, op = .click yes ∧ sys.answerp = true ∧ i = sys.mem.indexAssist) ∨
      0 < sys.mem.indexAssist ∧ i = sys.mem.indexAssist - 1 := by
  rcases List.mem_append.mp member with read | written
  · cases op with
    | click yes =>
      simp only [reads] at read
      split_ifs at read with visible
      · exact .inl ⟨yes, rfl, visible, Access.assist.inj (List.mem_singleton.mp read)⟩
      · exact absurd read List.not_mem_nil
    | collect =>
      simp only [reads] at read
      split_ifs at read with waits
      · exact .inr ⟨waits.2, Access.assist.inj (List.mem_singleton.mp read)⟩
      · exact absurd read List.not_mem_nil
    | receive => exact absurd read List.not_mem_nil
    | notif =>
      simp only [reads] at read
      split_ifs at read <;> simp at read
  · obtain ⟨_, _, same⟩ := Option.map_eq_some_iff.mp (Option.mem_toList.mp written)
    cases same

/-- An allowed step is in range, where the indices are before it. -/
theorem range_of_allowed (sys : System) (op : Op) (indexed : Indexed sys)
    (allowed : Allowed sys op) : InRange sys op := by
  have after := moves_indexed sys _ op indexed allowed (next_moves sys op)
  obtain ⟨⟨caught, inside⟩, assist⟩ := indexed
  refine ⟨after.ordered.caught, ?_, ?_, ?_⟩
  · intro i member
    rcases msgs_accessed sys op i member with ⟨waiting, rfl⟩ | ⟨msg, added, rfl⟩
    · omega
    · exact add_position_lt sys op allowed msg added
  · intro i member
    rcases assist_accessed sys op i member with ⟨yes, click, visible, rfl⟩ | ⟨some, rfl⟩
    · rw [allowed.answered yes click visible]
      decide
    · omega
  · intro msg added waiting full
    have room := allowed.room (by rw [added]; rfl)
    omega

/-- In every interleaving, each step is in range if and only if each is allowed.

Proof: `Indexed` is the invariant. It puts the elements that an allowed step accesses
inside their arrays, and an allowed step keeps it; the converse needs no invariant. -/
theorem indices_in_range_iff (ops : List Op) :
    Runs.EveryStep next .initial ops (fun _ sys op =>
        sys.mem.indexE ≤ sys.mem.index ∧ InRange sys op) ↔
      Runs.EveryStep next .initial ops fun _ sys op => Allowed sys op := by
  apply Runs.every_step_iff fun _ sys => Indexed sys
  · exact ⟨⟨Nat.le_refl _, Nat.zero_le _⟩, Nat.zero_le _⟩
  · intro _ sys op indexed
    constructor
    · intro range
      exact allowed_of_range sys op range.2
    · intro allowed
      exact ⟨indexed.ordered.caught, range_of_allowed sys op indexed allowed⟩
  · intro _ sys op indexed allowed
    exact moves_indexed sys _ op indexed allowed (next_moves sys op)

/-- A notice, which is shown and not answered. -/
def noticeMail : MsgMail := ⟨1, "NOTIF".toList, [], nil_fits⟩

/-- A request for help, which is shown and can be answered. -/
def assistMail : MsgMail := ⟨1, "ASSIST".toList, [], nil_fits⟩

/-- A hundred notices fill the array; the next one is written behind it. Two requests
shown late are both answered before `ui` collects; the second answer is written behind
the first. -/
theorem late_steps_out_of_range :
    ¬ Runs.EveryStep next .initial (List.replicate 100 (.receive noticeMail) ++
        [.receive noticeMail]) (fun _ sys op =>
          sys.mem.indexE ≤ sys.mem.index ∧ InRange sys op) ∧
      ¬ Runs.EveryStep next .initial [.receive assistMail, .collect, .receive assistMail, .notif,
          .click true, .notif, .notif, .click true] (fun _ sys op =>
            sys.mem.indexE ≤ sys.mem.index ∧ InRange sys op) := by
  constructor
  · intro every
    have range := (every (List.replicate 100 (.receive noticeMail)) _ [] rfl).2
    have position := range.msgs 100 (by decide +kernel)
    simp [shmDefaultSize] at position
  · intro every
    have range := (every [.receive assistMail, .collect, .receive assistMail, .notif,
      .click true, .notif, .notif] _ [] rfl).2
    have position := range.assist 1 (by decide +kernel)
    simp [assistSize, shmDefaultSize] at position

end EventRecorder.SharedIndices
