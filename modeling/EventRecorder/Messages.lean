import EventRecorder.Fifo
import EventRecorder.SharedMemory

/-!
# The messages for the display

The array of messages starts again at its beginning when the display has caught up.
As long as every message is added then, or while the index is below the length of the
array, the display shows all messages in order.

The number of messages that wait does not decide this: the index also counts the shown
messages since the display last caught up, so a display that always lags a little
loses messages with few of them waiting.
-/

namespace EventRecorder.Messages

open SharedMemory Fifo

/-- A call of `add_message` or of `notif_callback`, by the recorder or by the window. -/
inductive Op where
  | add (msg : Msg)
  | notif

/-- One call, on the memory that the two processes share. -/
def next (sys : System) : Op → System
  | .add msg => { sys with mem := addMessage sys.mem msg }
  | .notif => notifCallback sys

/-- What a call does to the messages: one is added, or the callback consumes the message
at its index if there is one. -/
def event (sys : System) : Op → Event Msg
  | .add msg => .added msg
  | .notif =>
    if sys.mem.index = sys.mem.indexE then .idle
    else .taken (some (sys.mem.cells sys.mem.indexE))

/-- The events of a run, one for each of its calls. -/
def events (ops : List Op) : List (Event Msg) :=
  Runs.emitted next (fun sys op => [event sys op]) .initial ops

/-- The state after a run, from cleared memory. -/
def state (ops : List Op) : System := Runs.after next .initial ops

/-- The messages added and not consumed yet, counted over the whole run. -/
def pending (ops : List Op) : Nat := (added (events ops)).length - (taken (events ops)).length

/-- The display has caught up, or the array has room, when a message is added. Callbacks
need no room. -/
def Room (sys : System) : Op → Prop
  | .add _ => sys.mem.index = sys.mem.indexE ∨ sys.mem.index < shmDefaultSize
  | .notif => True

instance (sys : System) (op : Op) : Decidable (Room sys op) := by
  cases op <;> unfold Room <;> infer_instance

/-- The messages between the two indices, which are those that wait to be shown. -/
def contents (sys : System) : List (Option Msg) :=
  (List.range (sys.mem.index - sys.mem.indexE)).map fun i =>
    some (sys.mem.cells (sys.mem.indexE + i))

/-- A callback moves its index by one, whatever it shows, and leaves the messages where
they are. -/
theorem notif_mem (sys : System) (waiting : sys.mem.index ≠ sys.mem.indexE) :
    (notifCallback sys).mem = { sys.mem with indexE := sys.mem.indexE + 1 } := by
  rw [notifCallback, if_neg waiting]
  split <;> rfl

/-- A message added in time is the last one waiting, whether the array goes on or starts
again. -/
theorem add_follows (sys : System) (msg : Msg) (ordered : Ordered sys.mem)
    (room : Room sys (.add msg)) :
    Ordered (addMessage sys.mem msg) ∧
      contents { sys with mem := addMessage sys.mem msg } = contents sys ++ [some msg] := by
  refine ⟨add_ordered _ msg ordered, ?_⟩
  have caught := ordered.caught
  by_cases caughtUp : sys.mem.index = sys.mem.indexE
  · rw [add_caught_up _ _ caughtUp]
    simp [contents, caughtUp]
  · have behind := room.resolve_left caughtUp
    rw [add_behind _ _ caughtUp behind]
    have longer : sys.mem.index + 1 - sys.mem.indexE = sys.mem.index - sys.mem.indexE + 1 := by
      omega
    have last : sys.mem.indexE + (sys.mem.index - sys.mem.indexE) = sys.mem.index := by omega
    simp only [contents, longer, List.range_succ, List.map_append, List.map_singleton, last,
      Function.update_self]
    congr 1
    apply List.map_congr_left
    intro i member
    have below := List.mem_range.mp member
    rw [Function.update_of_ne (by omega)]

/-- A callback consumes the first message waiting, and leaves the others waiting in
their order. -/
theorem notif_follows (sys : System) (ordered : Ordered sys.mem)
    (waiting : sys.mem.index ≠ sys.mem.indexE) :
    Ordered (notifCallback sys).mem ∧
      contents sys = some (sys.mem.cells sys.mem.indexE) :: contents (notifCallback sys) := by
  obtain ⟨caught, inside⟩ := ordered
  have mem := notif_mem sys waiting
  refine ⟨?_, ?_⟩
  · rw [mem]
    refine ⟨?_, inside⟩
    simp only
    omega
  · have longer : sys.mem.index - sys.mem.indexE = sys.mem.index - (sys.mem.indexE + 1) + 1 := by
      omega
    simp only [contents, mem, longer, List.range_succ_eq_map, List.map_cons, List.map_map,
      Nat.add_zero, List.cons.injEq, true_and]
    apply List.map_congr_left
    intro i _
    simp only [Function.comp_apply, Nat.succ_eq_add_one]
    congr 2
    omega

/-- Every call made in time keeps the indices ordered and follows its event, as a queue
would. -/
theorem op_follows (sys : System) (op : Op) (ordered : Ordered sys.mem) (room : Room sys op) :
    Ordered (next sys op).mem ∧
      Follows (event sys op) (contents sys) (contents (next sys op)) := by
  cases op with
  | add msg => exact add_follows sys msg ordered room
  | notif =>
    by_cases waiting : sys.mem.index = sys.mem.indexE
    · have idle : notifCallback sys = sys := if_pos waiting
      simpa [next, event, waiting, idle, Follows] using ordered
    · simpa [next, event, waiting, Follows] using notif_follows sys ordered waiting

/-- No call drops messages: one adds a message, and the other consumes one or does
nothing. Dropping is an event of the general account only. -/
theorem no_drop (ops : List Op) : Event.dropped ∉ events ops := by
  have single : ∀ sys ops,
      Event.dropped ∉ Runs.emitted next (fun sys op => [event sys op]) sys ops := by
    intro sys ops
    induction ops generalizing sys with
    | nil => exact List.not_mem_nil
    | cons op rest inductionHypothesis =>
      have other : event sys op ≠ .dropped := by
        cases op with
        | add => simp [event]
        | notif =>
          unfold event
          split_ifs <;> simp
      simpa [other.symm] using inductionHypothesis (next sys op)
  exact single .initial ops

/-- In a run of calls made in time, the messages consumed so far, followed by those
between the indices, are the messages added so far. -/
theorem run_accounts (ops : List Op)
    (room : Runs.EveryStep next .initial ops fun _ sys op => Room sys op)
    (before rest : List Op) (split : ops = before ++ rest) :
    Ordered (state before).mem ∧
      taken (events before) ++ contents (state before) = (added (events before)).map some := by
  have account := accounts_run event contents (fun sys => Ordered sys.mem) Room
    ⟨Nat.le_refl _, Nat.zero_le _⟩ rfl op_follows ops room before rest split
  refine ⟨account.1, ?_⟩
  rw [← kept_eq_added _ (no_drop before)]
  exact account.2

/-- If every message is added when the display has caught up or the index is in the
array, the messages consumed are always a prefix of those added, and all of them when
the indices are equal.

Proof: the messages between the indices follow the events of the run as a queue does,
call by call; and what is taken from a queue is a prefix of what was put in, with the
rest still waiting. -/
theorem messages_consumed (ops : List Op)
    (room : Runs.EveryStep next .initial ops fun _ sys op => Room sys op)
    (before rest : List Op) (split : ops = before ++ rest) :
    taken (events before) <+: (added (events before)).map some ∧
      ((state before).mem.index = (state before).mem.indexE →
        taken (events before) = (added (events before)).map some) := by
  obtain ⟨_, accounts⟩ := run_accounts ops room before rest split
  refine ⟨⟨_, accounts⟩, fun caughtUp => ?_⟩
  simpa [contents, caughtUp] using accounts

/-- An error and a notice, each shown before the run ends. -/
theorem two_messages_consumed :
    taken (events [.add ⟨.error, ['e'], by decide⟩, .notif, .add ⟨.notif, [], nil_fits⟩,
        .notif]) =
      (added (events [.add ⟨.error, ['e'], by decide⟩, .notif, .add ⟨.notif, [], nil_fits⟩,
        .notif])).map some :=
  (messages_consumed _ (by decide) _ [] (List.append_nil _).symm).2 (by decide)

/-! ## A lagging display -/

/-- A message without a text, of which nothing but its place matters. -/
def notice : Op := .add ⟨.notif, [], nil_fits⟩

/-- The display lags by 98 messages when the index reaches the end of the array, without
ever having caught up. -/
def lagging : List Op := List.replicate 99 notice ++ [.notif, notice, .notif]

/-- The display consumes all it can after one more message, and has then lost some. -/
def drained : List Op := lagging ++ notice :: List.replicate 98 .notif

/-- With an ordered pair of indices as many messages are pending as lie between them, so
that the number is no condition of its own. -/
theorem pending_eq (ops : List Op)
    (room : Runs.EveryStep next .initial ops fun _ sys op => Room sys op)
    (before rest : List Op) (split : ops = before ++ rest) :
    pending before = (state before).mem.index - (state before).mem.indexE := by
  obtain ⟨_, accounts⟩ := run_accounts ops room before rest split
  have lengths := congrArg List.length accounts
  simp only [List.length_append, List.length_map, contents, List.length_range] at lengths
  rw [pending]
  omega

/-- Fewer messages are pending than the array holds whenever one is added, but the last
of them is never consumed: the display has caught up one message short. -/
theorem lagging_loses_message :
    Runs.EveryStep next .initial drained (fun before _ op =>
        op ≠ .notif → pending before < shmDefaultSize) ∧
      (state drained).mem.index = (state drained).mem.indexE ∧
      taken (events drained) ≠ (added (events drained)).map some := by
  refine ⟨?_, by decide +kernel, ?_⟩
  · have room : Runs.EveryStep next .initial lagging fun _ sys op => Room sys op := by
      decide +kernel
    rw [drained, Runs.every_step_append, Runs.every_step_cons]
    refine ⟨?_, ?_, ?_⟩
    · intro before op rest split adds
      rw [pending_eq lagging room before (op :: rest) split]
      have ordered := (run_accounts lagging room before (op :: rest) split).1
      have inTime : Room (state before) op := room before op rest split
      cases op with
      | add =>
        obtain caughtUp | inside := inTime
        · rw [caughtUp, Nat.sub_self]
          decide
        · exact Nat.lt_of_le_of_lt (Nat.sub_le _ _) inside
      | notif => exact absurd rfl adds
    · intro _
      rw [List.append_nil, pending_eq lagging room lagging [] (List.append_nil _).symm]
      decide +kernel
    · intro before op rest split adds
      have member : op ∈ List.replicate 98 Op.notif := by
        rw [split]
        exact List.mem_append_right _ List.mem_cons_self
      exact absurd (List.eq_of_mem_replicate member) adds
  · intro same
    have lengths := congrArg List.length same
    revert lengths
    decide +kernel

end EventRecorder.Messages
