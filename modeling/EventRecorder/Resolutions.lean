import EventRecorder.SharedIndices

/-!
# What becomes of a request for help

A desk says what `ui` is for: it takes a request, keeps the last answer given since, and
settles the request with it, or without an answer when there is none. Runs of the shared
memory without an access out of range refine it, whatever the display and the user do
between: each request is settled once, in order, and what `ui` sends is decided by the
outcome.
-/

namespace EventRecorder.Resolutions

open SharedMemory SharedIndices

/-! ## The desk -/

/-- What happens at the desk: someone asks, an answer is given, the request is settled,
or nothing. -/
inductive Event where
  | asked (mail : MsgMail)
  | answered (yes : Bool)
  | settled
  | nothing

/-- The request at the desk, and the answer given last. It is the abstract state that
the shared memory stands for. -/
structure Desk where
  request : Option MsgMail
  given : Option Bool

/-- Nobody has asked, and nobody has answered. -/
def Desk.initial : Desk := ⟨none, none⟩

/-- A request drops the answers before it, which were given to another; and of several
answers the last one counts. -/
def Desk.next (desk : Desk) : Event → Desk
  | .asked mail => ⟨some mail, none⟩
  | .answered yes => { desk with given := some yes }
  | .settled => ⟨none, none⟩
  | .nothing => desk

/-- A request, and the answer it is settled with, if there is one. -/
abbrev Outcome := MsgMail × Option Bool

/-- The outcome of an event: settling has one, if there is a request at the desk. -/
def Desk.outcome (desk : Desk) : Event → List Outcome
  | .settled => (desk.request.map (·, desk.given)).toList
  | _ => []

/-- The outcomes of some events, in the order in which the requests were settled. -/
def outcomes (events : List Event) : List Outcome :=
  Runs.emitted Desk.next Desk.outcome .initial events

/-- The requests among some events, in the order in which they were made. -/
def asked (events : List Event) : List MsgMail :=
  events.filterMap fun event => match event with
    | .asked mail => some mail
    | _ => none

/-- The requests come in the order of the events. -/
@[simp] theorem asked_append (before rest : List Event) :
    asked (before ++ rest) = asked before ++ asked rest := List.filterMap_append

/-- One request at a time: nobody asks while another waits. -/
def Free (desk : Desk) : Event → Prop
  | .asked _ => desk.request = none
  | _ => True

/-- Where nobody asks before the last request is settled, each request has one outcome, in
order, but for the one that is at the desk. -/
theorem asked_outcomes (desk : Desk) (events : List Event)
    (free : Runs.EveryStep Desk.next desk events fun _ desk event => Free desk event) :
    desk.request.toList ++ asked events =
      (Runs.emitted Desk.next Desk.outcome desk events).map Prod.fst ++
        (Runs.after Desk.next desk events).request.toList := by
  induction events generalizing desk with
  | nil => simp [asked]
  | cons event rest inductionHypothesis =>
    obtain ⟨here, others⟩ := (Runs.every_step_cons _ _ _ _ _).mp free
    have later := inductionHypothesis (desk.next event) others
    rw [Runs.emitted_cons, Runs.after_cons, List.map_append, List.append_assoc, ← later]
    cases event with
    | asked mail =>
      rw [show desk.request = none from here]
      rfl
    | settled => cases request : desk.request <;> simp [Desk.outcome, Desk.next, asked, request]
    | _ => rfl

/-! ## The shared memory refines it -/

/-- What a step is for the desk. Messages that are no request and prompts that are shown
are nothing. -/
def event (sys : System) : Op → Event
  | .receive mail =>
    if sys.request.isNone ∧ messageType mail = some .assistance then .asked mail else .nothing
  | .collect => if sys.request.isSome then .settled else .nothing
  | .notif => .nothing
  | .click yes => if sys.answerp then .answered yes else .nothing

/-- What a run is for the desk, step by step. -/
def events (sys : System) (ops : List Op) : List Event :=
  Runs.emitted SharedMemory.next (fun sys op => [event sys op]) sys ops

/-- The mails `ui` sends in a step: those of its reaction to what it has collected. -/
def sends {F : Type} (sys : System) : Op → List (Mail F)
  | .collect =>
    match sys.request with
    | some mail => reactionMails mail sys.mem.collected
    | none => []
  | _ => []

/-- The mails `ui` sends in a run, in order. -/
def uiMails {F : Type} (ops : List Op) : List (Mail F) :=
  Runs.emitted SharedMemory.next sends .initial ops

/-- The mails of an outcome, which do not depend on anything but the request and the
answer. -/
def outcomeMails {F : Type} (outcome : Outcome) : List (Mail F) :=
  reactionMails outcome.1 (outcome.2.map fun yes => (answerMsg yes).data)

/-- The memory holds what is at the desk: the request that waits, and the last answer in
the first cell for answers. -/
structure Refines (desk : Desk) (sys : System) : Prop where
  request : desk.request = sys.request
  count : sys.mem.indexAssist = if desk.given.isSome then 1 else 0
  answer : ∀ yes, desk.given = some yes → sys.mem.cells (assistCell 0) = answerMsg yes

/-- What `ui` finds is what was given last, or nothing if no answer was given. -/
theorem Refines.collected {desk : Desk} {sys : System} (refines : Refines desk sys) :
    sys.mem.collected = desk.given.map fun yes => (answerMsg yes).data := by
  obtain ⟨_, count, answer⟩ := refines
  cases given : desk.given with
  | none => simp [Mem.collected, count, given]
  | some yes => simp [Mem.collected, count, given, answer yes given]

/-- Adding a message with room leaves the answer, whose cell is behind those of the
messages. -/
theorem add_answer (mem : Mem) (msg : Msg)
    (room : mem.index = mem.indexE ∨ mem.index < shmDefaultSize) :
    (addMessage mem msg).cells (assistCell 0) = mem.cells (assistCell 0) := by
  by_cases caughtUp : mem.index = mem.indexE
  · have apart : assistCell 0 ≠ 0 := by decide
    simp [add_caught_up mem msg caughtUp, Function.update_of_ne apart]
  · have below := room.resolve_left caughtUp
    have apart : assistCell 0 ≠ mem.index := Nat.ne_of_gt below
    simp [add_behind mem msg caughtUp below, Function.update_of_ne apart]

/-- A step in range does what the desk does, and a request comes when the desk is free. -/
theorem moves_refines (desk : Desk) (sys after : System) (op : Op) (refines : Refines desk sys)
    (allowed : Allowed sys op) (moves : Moves sys op after) :
    Refines (desk.next (event sys op)) after ∧ Free desk (event sys op) := by
  obtain ⟨request, count, answer⟩ := refines
  have kept (msg : Msg) (added : addedMsg sys op = some msg) :
      (addMessage sys.mem msg).cells (assistCell 0) = sys.mem.cells (assistCell 0) :=
    add_answer sys.mem msg (allowed.room (by rw [added]; rfl))
  have gone : sys.mem.indexAssist - 1 = 0 := by
    rw [count]
    split_ifs <;> rfl
  cases moves with
  | busy mail waits =>
    have some := Option.isSome_iff_ne_none.mp waits
    rw [show event sys (.receive mail) = .nothing by simp [event, some]]
    exact ⟨⟨request, count, answer⟩, trivial⟩
  | unknown mail idle untyped =>
    rw [show event sys (.receive mail) = .nothing by simp [event, untyped]]
    exact ⟨⟨request, count, answer⟩, trivial⟩
  | notice mail idle type known other =>
    rw [show event sys (.receive mail) = .nothing by simp [event, known, other]]
    have same := kept (mail.message type) (by simp [addedMsg, idle, known])
    refine ⟨⟨request, (add_index_assist _ _).trans count, ?_⟩, trivial⟩
    intro yes given
    exact same.trans (answer yes given)
  | asks mail idle known =>
    have none : sys.request = none := by simpa using idle
    rw [show event sys (.receive mail) = .asked mail by simp [event, known, none]]
    exact ⟨⟨rfl, rfl, fun _ given => by cases given⟩, request.trans none⟩
  | asleep idle =>
    rw [show event sys .collect = .nothing by simp [event, idle]]
    exact ⟨⟨request, count, answer⟩, trivial⟩
  | reacts waits ambulance msg reacts other =>
    rw [show event sys .collect = .settled by simp [event, waits]]
    refine ⟨⟨rfl, (add_index_assist _ _).trans gone, ?_⟩, trivial⟩
    intro _ given
    cases given
  | ignores waits nothing =>
    rw [show event sys .collect = .settled by simp [event, waits]]
    exact ⟨⟨rfl, gone, fun _ given => by cases given⟩, trivial⟩
  | caughtUp same => exact ⟨⟨request, count, answer⟩, trivial⟩
  | shows waiting other answerp view hides => exact ⟨⟨request, count, answer⟩, trivial⟩
  | prompts waiting shown => exact ⟨⟨request, count, answer⟩, trivial⟩
  | hidden yes invisible =>
    rw [show event sys (.click yes) = .nothing by simp [event, invisible]]
    exact ⟨⟨request, count, answer⟩, trivial⟩
  | clicks yes visible room =>
    rw [show event sys (.click yes) = .answered yes by simp [event, visible]]
    have first := allowed.answered yes rfl visible
    refine ⟨⟨request, by simp [Desk.next, first], ?_⟩, trivial⟩
    intro other given
    obtain rfl : yes = other := by simpa [Desk.next] using given
    simp [first]
  | beyond yes visible full =>
    have first := allowed.answered yes rfl visible
    rw [first] at full
    cases full

/-- `ui` sends the mails of the outcome, in every step of memory that refines a desk. -/
theorem sends_outcome {F : Type} (desk : Desk) (sys : System) (op : Op)
    (refines : Refines desk sys) :
    (sends sys op : List (Mail F)) = (desk.outcome (event sys op)).flatMap outcomeMails := by
  cases op with
  | collect =>
    cases waits : sys.request with
    | none => simp [sends, event, waits, Desk.outcome]
    | some mail =>
      simp [sends, event, waits, Desk.outcome, refines.request, outcomeMails, refines.collected]
  | receive mail =>
    simp only [sends, event]
    split_ifs <;> rfl
  | notif => rfl
  | click yes =>
    simp only [sends, event]
    split_ifs <;> rfl

/-- Runs of the memory whose accesses are in range refine runs of the desk.

Proof: by induction on the steps. A step in range leads from memory that refines a desk
to memory that refines the desk after its event, which is a free one, and sends the
mails of its outcome. -/
theorem run_refines {F : Type} (desk : Desk) (sys : System) (ops : List Op)
    (refines : Refines desk sys)
    (allowed : Runs.EveryStep SharedMemory.next sys ops fun _ sys op => Allowed sys op) :
    Refines (Runs.after Desk.next desk (events sys ops)) (Runs.after SharedMemory.next sys ops) ∧
      (Runs.EveryStep Desk.next desk (events sys ops) fun _ desk event => Free desk event) ∧
      (Runs.emitted SharedMemory.next sends sys ops : List (Mail F)) =
        (Runs.emitted Desk.next Desk.outcome desk (events sys ops)).flatMap outcomeMails := by
  induction ops generalizing desk sys with
  | nil => exact ⟨refines, Runs.every_step_nil _ _ _, rfl⟩
  | cons op ops inductionHypothesis =>
    obtain ⟨here, others⟩ := (Runs.every_step_cons _ _ _ _ _).mp allowed
    obtain ⟨still, free⟩ := moves_refines desk sys _ op refines here (next_moves sys op)
    obtain ⟨last, later, rest⟩ := inductionHypothesis _ _ still others
    refine ⟨last, (Runs.every_step_cons _ _ _ _ _).mpr ⟨free, later⟩, ?_⟩
    rw [Runs.emitted_cons, rest, sends_outcome desk sys op refines, ← List.flatMap_append]
    rfl

/-- At the beginning neither the memory nor the desk has a request or an answer. -/
theorem initial_refines : Refines .initial .initial := ⟨rfl, rfl, fun _ given => by cases given⟩

/-- In every interleaving without an access out of range: each request that `ui` takes
is settled once, in order, but for the one that waits, and `ui` sends the mails of the
outcomes and no others.

Proof: the run refines one of the desk with one request at a time. There every request
asked is settled before the next, and the mails of each step are those of its outcome. -/
theorem requests_settled {F : Type} (ops : List Op)
    (allowed : Runs.EveryStep SharedMemory.next .initial ops fun _ sys op => Allowed sys op) :
    asked (events .initial ops) = (outcomes (events .initial ops)).map Prod.fst ++
        (Runs.after SharedMemory.next .initial ops).request.toList ∧
      (uiMails ops : List (Mail F)) =
        (outcomes (events .initial ops)).flatMap outcomeMails := by
  obtain ⟨refines, free, mails⟩ := run_refines .initial .initial ops initial_refines allowed
  exact ⟨refines.request ▸ asked_outcomes .initial _ free, mails⟩

/-- A click on a button, of whichever answer. -/
def clicked : Op → Bool
  | .click _ => true
  | _ => false

/-- A step is allowed by what it adds and, if it is a click, by the answers that wait. -/
theorem allowed_iff (sys : System) (op : Op) :
    Allowed sys op ↔
      ((addedMsg sys op).isSome = true →
        sys.mem.index = sys.mem.indexE ∨ sys.mem.index < shmDefaultSize) ∧
      (clicked op = true → sys.answerp = true → sys.mem.indexAssist = 0) := by
  constructor
  · intro allowed
    refine ⟨allowed.room, fun clicks => ?_⟩
    cases op with
    | click yes => exact allowed.answered yes rfl
    | _ => cases clicks
  · rintro ⟨room, answered⟩
    exact ⟨room, fun yes click => answered (by rw [click]; rfl)⟩

instance (sys : System) (op : Op) : Decidable (Allowed sys op) :=
  decidable_of_iff _ (allowed_iff sys op).symm

/-- A request is shown and answered with a yes, another one gets no answer. -/
def twoRequests : List Op :=
  [.receive assistMail, .notif, .click true, .collect, .receive assistMail, .collect]

/-- Both are settled, and an ambulance is called for both, with different reasons. -/
theorem two_requests_settled :
    (uiMails twoRequests : List (Mail ℚ)) =
      [⟨1, mtCellular, .int 1, "ASSIST".toList⟩,
        storageMail ⟨.ui, .log "CALLING AMBULANCE".toList, []⟩,
        ⟨1, mtCellular, .int 2, "ASSIST".toList⟩,
        storageMail ⟨.ui, .log "CALLING AMBULANCE, NO ANSWER".toList, []⟩] :=
  (requests_settled twoRequests (by decide +kernel)).2.trans (by decide +kernel)

end EventRecorder.Resolutions
