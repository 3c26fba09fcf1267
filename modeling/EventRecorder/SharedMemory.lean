import EventRecorder.Mail
import EventRecorder.Runs
import Mathlib.Logic.Function.Basic

/-!
# The memory shared with the display

The `ui` thread adds messages to an array in shared memory and the display process
shows them one at a time. The user's answer to a request for help is put into a second
array directly behind the first. One numbering covers the cells of both.

Each step is one section under the mutex: a mail that `ui` takes, the answer it
collects, the display's callback, a click. A step that cannot happen, because `ui`
waits for an answer or none of its prompts is visible, leaves the state. A click that
finds no free answer would write over the indices and has no result.
-/

namespace EventRecorder.SharedMemory

open CText

universe u

/-- `msg_type`, by which the display decides how to show a message. -/
inductive MsgType where
  | notif
  | error
  | assistance
  | assistanceRevert
  deriving DecidableEq, Repr

/-- `msg_t`. The text fits its array with the terminator, which makes copying it safe. -/
structure Msg where
  type : MsgType
  data : Text
  fits : data.length < 200
  deriving DecidableEq

/-- `SHM_DEFAULT_SIZE`, the messages that the array has room for. -/
def shmDefaultSize : Nat := 100

/-- The length of `assist`, `SHM_DEFAULT_SIZE / 100`, which is one. -/
def assistSize : Nat := shmDefaultSize / 100

/-- `mem_t`, with the cells of both arrays under one numbering, as they lie in memory. -/
structure Mem where
  cells : Nat → Msg
  index : Nat
  indexE : Nat
  indexAssist : Nat

/-- The cell of `assist[i]`, directly behind those of the messages. -/
def assistCell (i : Nat) : Nat := shmDefaultSize + i

/-- An access to an element of one of the arrays, by its position in that array. -/
inductive Access where
  | msgs (position : Nat)
  | assist (position : Nat)
  deriving DecidableEq, Repr

/-- The element `add_message` writes, behind the last one if the array is full. -/
def addPosition (mem : Mem) : Nat := if mem.index = mem.indexE then 0 else mem.index

/-- `add_message`. Into a full array the message is written all the same, and the index
stays. -/
def addMessage (mem : Mem) (msg : Msg) : Mem :=
  -- The indices start again only when the display has caught up.
  let mem := if mem.index = mem.indexE then { mem with index := 0, indexE := 0 } else mem
  let written := { mem with cells := Function.update mem.cells mem.index msg }
  if written.index < shmDefaultSize then { written with index := written.index + 1 } else written

/-- A `DATA_MSG` mail for `ui`, as far as `ui` reads it. -/
structure MsgMail where
  priority : Int
  info : Text
  text : Text
  fits : text.length < 200

/-- The message `ui` adds for a mail, with the mail's text. -/
def MsgMail.message (mail : MsgMail) (type : MsgType) : Msg := ⟨type, mail.text, mail.fits⟩

/-- The shared memory, the request whose answer `ui` waits for, and the display:
whether the prompt is visible, and the text it has shown. -/
structure System where
  mem : Mem
  request : Option MsgMail
  answerp : Bool
  view : Text

/-- The empty text fits every array. -/
theorem nil_fits : ([] : Text).length < 200 := by decide

/-- After `memset`, with nothing shown and no request that waits. -/
def System.initial : System := ⟨⟨fun _ => ⟨.notif, [], nil_fits⟩, 0, 0, 0⟩, none, false, []⟩

/-! ## The ui thread -/

/-- The type of message for a mail, by its info. Other mails are not shown. -/
def messageType (mail : MsgMail) : Option MsgType :=
  if mail.info = "NOTIF".toList then some .notif
  else if mail.info = "ERROR".toList then some .error
  else if mail.info = "ASSIST".toList then some .assistance
  else none

/-- `ui` takes a mail. A request for help drops the answers before it. -/
def uiReceive (sys : System) (mail : MsgMail) : System :=
  match messageType mail with
  | none => sys
  | some .assistance =>
    { sys with
      mem := { addMessage sys.mem (mail.message .assistance) with indexAssist := 0 }
      request := some mail }
  | some type => { sys with mem := addMessage sys.mem (mail.message type) }

/-- The answer `ui` finds: the last one in the array of answers, if there is one. -/
def Mem.collected (mem : Mem) : Option Text :=
  if 0 < mem.indexAssist then some (mem.cells (assistCell (mem.indexAssist - 1))).data else none

/-- What `ui` does about an answer: the number it sends to the cellular process, and
the message it adds and logs. -/
def reaction : Option Text → Option (Option Int × Msg)
  | some text =>
    if text = "YES".toList then
      some (some 1, ⟨.notif, "CALLING AMBULANCE".toList, by decide⟩)
    else if text = "NO".toList then
      some (none, ⟨.notif, "AMBULANCE AVERTED".toList, by decide⟩)
    else none
  | none => some (some 2, ⟨.assistanceRevert, "CALLING AMBULANCE, NO ANSWER".toList, by decide⟩)

/-- `MT_CELLULAR`, the type of the mails about an ambulance. -/
def mtCellular : Int := 2 ^ 5

/-- The mails `ui` sends about an answer to a request: one to the cellular process if an
ambulance is to come, and one to the storage. -/
def reactionMails {F : Type u} (mail : MsgMail) (answer : Option Text) : List (Mail F) :=
  match reaction answer with
  | none => []
  | some (ambulance, msg) =>
    (ambulance.map fun i => ⟨mail.priority, mtCellular, .int i, mail.info⟩).toList ++
      [storageMail ⟨.ui, .log msg.data, []⟩]

/-- `ui` collects the answer, or gives up waiting for one. Either way the request is
over. -/
def uiCollect (sys : System) : System :=
  let mem := { sys.mem with indexAssist := sys.mem.indexAssist - 1 }
  match reaction sys.mem.collected with
  | none => { sys with mem := mem, request := none }
  | some (_, msg) => { sys with mem := addMessage mem msg, request := none }

/-! ## The display -/

/-- `insert_txt`, which shows the next message as a line of text. -/
def insertTxt (sys : System) (text : Text) : System :=
  { sys with
    mem := { sys.mem with indexE := sys.mem.indexE + 1 }
    view := sys.view ++ text ++ (sys.mem.cells sys.mem.indexE).data ++ ['\n'] }

/-- `notif_callback`. The difference of the indices is unsigned, so that it is zero only
where they are equal. -/
def notifCallback (sys : System) : System :=
  if sys.mem.index = sys.mem.indexE then sys
  else
    match (sys.mem.cells sys.mem.indexE).type with
    | .notif => insertTxt sys []
    | .error => insertTxt sys "ERROR: ".toList
    | .assistance =>
      { sys with mem := { sys.mem with indexE := sys.mem.indexE + 1 }, answerp := true }
    | .assistanceRevert => insertTxt { sys with answerp := false } "ASSIST: ".toList

/-- The answer of a button, as the text that `ui` compares. -/
def answerMsg (yes : Bool) : Msg :=
  if yes then ⟨.assistance, "YES".toList, by decide⟩ else ⟨.assistance, "NO".toList, by decide⟩

/-- `btn_callback_yes` and `btn_callback_no`. There is no result where the write would
be behind the array. -/
def btnCallback (yes : Bool) (sys : System) : Option System :=
  if sys.mem.indexAssist < assistSize then
    some { sys with
      mem := { sys.mem with
        cells := Function.update sys.mem.cells (assistCell sys.mem.indexAssist) (answerMsg yes)
        indexAssist := sys.mem.indexAssist + 1 }
      answerp := false }
  else none

/-! ## Steps -/

/-- A step of `ui`, of the display or of the user. Each holds the mutex from its
beginning to its end. -/
inductive Op where
  | receive (mail : MsgMail)
  | collect
  | notif
  | click (yes : Bool)

/-- One step. `ui` takes no mail while it waits for an answer, and the user sees a
button only while a prompt is shown. -/
def step (sys : System) : Op → Option System
  | .receive mail => if sys.request.isSome then some sys else some (uiReceive sys mail)
  | .collect => if sys.request.isSome then some (uiCollect sys) else some sys
  | .notif => some (notifCallback sys)
  | .click yes => if sys.answerp then btnCallback yes sys else some sys

/-- The state after a step, or as it was when the step has no result. -/
def next (sys : System) (op : Op) : System := (step sys op).getD sys

/-- The message a step adds, which for a collection is the one about the answer. -/
def addedMsg (sys : System) : Op → Option Msg
  | .receive mail =>
    if sys.request.isSome then none else (messageType mail).map mail.message
  | .collect => if sys.request.isSome then (reaction sys.mem.collected).map Prod.snd else none
  | .notif | .click _ => none

/-- The elements a step accesses, without the one it adds to. -/
def reads (sys : System) : Op → List Access
  | .receive _ => []
  | .collect =>
    if sys.request.isSome ∧ 0 < sys.mem.indexAssist then [.assist (sys.mem.indexAssist - 1)]
    else []
  | .notif => if sys.mem.index = sys.mem.indexE then [] else [.msgs sys.mem.indexE]
  | .click _ => if sys.answerp then [.assist sys.mem.indexAssist] else []

/-- The elements a step accesses, the one it adds to included. -/
def accesses (sys : System) (op : Op) : List Access :=
  reads sys op ++ ((addedMsg sys op).map fun _ => .msgs (addPosition sys.mem)).toList

/-! ## Adding -/

variable (mem : Mem) (msg : Msg)

/-- Adding to an array whose messages have all been shown, which starts from its first
element again. -/
theorem add_caught_up (caughtUp : mem.index = mem.indexE) :
    addMessage mem msg = ⟨Function.update mem.cells 0 msg, 1, 0, mem.indexAssist⟩ := by
  simp [addMessage, caughtUp, shmDefaultSize]

/-- Adding behind waiting messages, while there is room. -/
theorem add_behind (waiting : mem.index ≠ mem.indexE) (room : mem.index < shmDefaultSize) :
    addMessage mem msg =
      ⟨Function.update mem.cells mem.index msg, mem.index + 1, mem.indexE, mem.indexAssist⟩ := by
  simp [addMessage, waiting, room]

/-- Adding to a full array, behind its last element and without counting the message. -/
theorem add_full (waiting : mem.index ≠ mem.indexE) (full : shmDefaultSize ≤ mem.index) :
    addMessage mem msg =
      ⟨Function.update mem.cells mem.index msg, mem.index, mem.indexE, mem.indexAssist⟩ := by
  simp [addMessage, waiting, Nat.not_lt.mpr full]

/-- Adding a message does not change the number of answers. -/
@[simp] theorem add_index_assist : (addMessage mem msg).indexAssist = mem.indexAssist := by
  simp only [addMessage]
  split_ifs <;> rfl

/-- The indices are ordered and in range. It holds of every state that can be reached. -/
structure Ordered (mem : Mem) : Prop where
  caught : mem.indexE ≤ mem.index
  inside : mem.index ≤ shmDefaultSize

/-- Adding a message keeps the indices in order, in a full array too. -/
theorem add_ordered (ordered : Ordered mem) : Ordered (addMessage mem msg) := by
  obtain ⟨caught, inside⟩ := ordered
  by_cases caughtUp : mem.index = mem.indexE
  · rw [add_caught_up mem msg caughtUp]
    exact ⟨Nat.zero_le _, (by decide : 1 ≤ shmDefaultSize)⟩
  by_cases room : mem.index < shmDefaultSize
  · rw [add_behind mem msg caughtUp room]
    exact ⟨Nat.le_succ_of_le caught, room⟩
  · rw [add_full mem msg caughtUp (Nat.not_lt.mp room)]
    exact ⟨caught, inside⟩

/-! ## What a step can do -/

/-- The state after `ui` has added its message about an answer, and no request waits any
more. -/
def reacted (sys : System) (msg : Msg) : System :=
  { sys with
    mem := addMessage { sys.mem with indexAssist := sys.mem.indexAssist - 1 } msg
    request := none }

/-- The steps, each with the state it leads to. Proofs about runs go by cases on these. -/
inductive Moves (sys : System) : Op → System → Prop where
  | busy (mail : MsgMail) (waits : sys.request.isSome = true) : Moves sys (.receive mail) sys
  | unknown (mail : MsgMail) (idle : sys.request.isSome = false)
      (untyped : messageType mail = none) : Moves sys (.receive mail) sys
  | notice (mail : MsgMail) (idle : sys.request.isSome = false) (type : MsgType)
      (known : messageType mail = some type) (other : type ≠ .assistance) :
      Moves sys (.receive mail) { sys with mem := addMessage sys.mem (mail.message type) }
  | asks (mail : MsgMail) (idle : sys.request.isSome = false)
      (known : messageType mail = some .assistance) :
      Moves sys (.receive mail)
        { sys with
          mem := { addMessage sys.mem (mail.message .assistance) with indexAssist := 0 }
          request := some mail }
  | asleep (idle : sys.request.isSome = false) : Moves sys .collect sys
  | reacts (waits : sys.request.isSome = true) (ambulance : Option Int) (msg : Msg)
      (reacts : reaction sys.mem.collected = some (ambulance, msg))
      (other : msg.type ≠ .assistance) :
      Moves sys .collect (reacted sys msg)
  | ignores (waits : sys.request.isSome = true) (nothing : reaction sys.mem.collected = none) :
      Moves sys .collect
        { sys with
          mem := { sys.mem with indexAssist := sys.mem.indexAssist - 1 }
          request := none }
  | caughtUp (same : sys.mem.index = sys.mem.indexE) : Moves sys .notif sys
  | shows (waiting : sys.mem.index ≠ sys.mem.indexE)
      (other : (sys.mem.cells sys.mem.indexE).type ≠ .assistance) (answerp : Bool) (view : Text)
      (hides : answerp = true → sys.answerp = true) :
      Moves sys .notif
        ⟨{ sys.mem with indexE := sys.mem.indexE + 1 }, sys.request, answerp, view⟩
  | prompts (waiting : sys.mem.index ≠ sys.mem.indexE)
      (request : (sys.mem.cells sys.mem.indexE).type = .assistance) :
      Moves sys .notif
        { sys with
          mem := { sys.mem with indexE := sys.mem.indexE + 1 }
          answerp := true }
  | hidden (yes : Bool) (invisible : sys.answerp = false) : Moves sys (.click yes) sys
  | clicks (yes : Bool) (visible : sys.answerp = true) (room : sys.mem.indexAssist < assistSize) :
      Moves sys (.click yes)
        { sys with
          mem := { sys.mem with
            cells := Function.update sys.mem.cells (assistCell sys.mem.indexAssist) (answerMsg yes)
            indexAssist := sys.mem.indexAssist + 1 }
          answerp := false }
  | beyond (yes : Bool) (visible : sys.answerp = true) (full : assistSize ≤ sys.mem.indexAssist) :
      Moves sys (.click yes) sys

/-- No reaction asks for help again, so that collecting an answer makes no new request. -/
theorem reaction_type (answer : Option Text) (ambulance : Option Int) (msg : Msg)
    (reacts : reaction answer = some (ambulance, msg)) : msg.type ≠ .assistance := by
  unfold reaction at reacts
  split at reacts
  · split_ifs at reacts
    · obtain ⟨_, rfl⟩ := Prod.mk.inj (Option.some.inj reacts)
      simp
    · obtain ⟨_, rfl⟩ := Prod.mk.inj (Option.some.inj reacts)
      simp
  · obtain ⟨_, rfl⟩ := Prod.mk.inj (Option.some.inj reacts)
    simp

/-- A callback is one of its moves, by the type of the message that is next. -/
theorem notif_moves (sys : System) : Moves sys .notif (notifCallback sys) := by
  unfold notifCallback
  split_ifs with same
  · exact .caughtUp same
  · split
    · exact .shows same (by simp [*]) _ _ id
    · exact .shows same (by simp [*]) _ _ id
    · exact .prompts same ‹_›
    · exact .shows same (by simp [*]) _ _ (by simp)

/-- A step is one of the moves, and the only one of its operation that is possible. -/
theorem next_moves (sys : System) (op : Op) : Moves sys op (next sys op) := by
  cases op with
  | receive mail =>
    simp only [next, step]
    split_ifs with waits
    · exact .busy mail waits
    · have idle : sys.request.isSome = false := by simpa using waits
      simp only [Option.getD_some, uiReceive]
      split
      · exact .unknown mail idle ‹_›
      · exact .asks mail idle ‹_›
      · exact .notice mail idle _ ‹_› ‹_›
  | collect =>
    simp only [next, step]
    split_ifs with waits
    · simp only [Option.getD_some, uiCollect]
      split
      · exact .ignores waits ‹_›
      · exact .reacts waits _ _ ‹_› (reaction_type _ _ _ ‹_›)
    · exact .asleep (by simpa using waits)
  | notif => exact notif_moves sys
  | click yes =>
    simp only [next, step, btnCallback]
    split_ifs with visible room
    · exact .clicks yes visible room
    · exact .beyond yes visible (Nat.not_lt.mp room)
    · exact .hidden yes (by simpa using visible)

end EventRecorder.SharedMemory
