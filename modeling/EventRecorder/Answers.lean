import EventRecorder.SharedMemory

/-!
# Whose answer is collected

Requests for help, the prompts that show them and the clicks on these carry no number.
The runs here count the requests beside the system and keep with every cell where its
contents came from, without a say in what the system does.

An answer belongs to the request it is collected for if no request is lost in a full
array and nobody clicks on a prompt while `ui` waits for the answer to a request that
has not been shown yet.
-/

namespace EventRecorder.Answers

open SharedMemory CText

/-- Where the contents of a cell come from: a request, or a click on the prompt of one. -/
inductive Origin where
  | other
  | request (number : Nat)
  | click (number : Nat) (yes : Bool)
  deriving DecidableEq, Repr

/-- A system with the number of requests so far, which is that of the last one, the
request whose prompt was shown last, and the origin of every cell. -/
structure Traced where
  sys : System
  requests : Nat
  prompt : Nat
  origin : Nat → Origin

/-- Before any request: none has been counted, and no cell has its contents from one. -/
def Traced.initial : Traced := ⟨.initial, 0, 0, fun _ => .other⟩

/-- The number of a request. Of any other contents it is 0, which no request has. -/
def Origin.number : Origin → Nat
  | .request number => number
  | _ => 0

/-- The number of requests after a step. A request that the shared memory has no room
for is counted as well. -/
def requestsAfter (traced : Traced) (op : Op) : Nat :=
  match op, addedMsg traced.sys op with
  | .receive _, some msg =>
    if msg.type = .assistance then traced.requests + 1 else traced.requests
  | _, _ => traced.requests

/-- The request whose prompt is shown last, after a step: the one of the message that
the window shows now, if it is a request. -/
def promptAfter (traced : Traced) : Op → Nat
  | .notif =>
    let mem := traced.sys.mem
    if mem.index ≠ mem.indexE ∧ (mem.cells mem.indexE).type = .assistance then
      (traced.origin mem.indexE).number
    else traced.prompt
  | _ => traced.prompt

/-- The origins after a step: that of the cell a click or a message is written to is
new, and the others are as they were. -/
def originAfter (traced : Traced) (op : Op) : Nat → Origin :=
  match op, addedMsg traced.sys op with
  | .click yes, _ =>
    let position := traced.sys.mem.indexAssist
    if traced.sys.answerp ∧ position < assistSize then
      Function.update traced.origin (assistCell position) (.click traced.prompt yes)
    else traced.origin
  | _, some msg =>
    Function.update traced.origin (addPosition traced.sys.mem)
      (if msg.type = .assistance then .request (traced.requests + 1) else .other)
  | _, none => traced.origin

/-- One step of the system, with the counts and the origins that go with it. -/
def next (traced : Traced) (op : Op) : Traced :=
  ⟨SharedMemory.next traced.sys op, requestsAfter traced op, promptAfter traced op,
    originAfter traced op⟩

/-- The system runs as it does untraced. What is counted beside it has no influence on
what it does. -/
theorem run_sys (traced : Traced) (ops : List Op) :
    (Runs.after next traced ops).sys = Runs.after SharedMemory.next traced.sys ops := by
  induction ops generalizing traced with
  | nil => rfl
  | cons op ops inductionHypothesis => exact inductionHypothesis (next traced op)

/-- No request waits to be shown, so that the prompt on the screen is the newest there
is. -/
def NonePending (mem : Mem) : Prop :=
  ∀ i, mem.indexE ≤ i → i < mem.index → (mem.cells i).type ≠ .assistance

/-- A request finds room. A click finds a free answer, and while `ui` waits no request
that is still to be shown. -/
structure Timely (sys : System) (op : Op) : Prop where
  room : ∀ mail, op = .receive mail → sys.request.isSome = false →
    messageType mail = some .assistance →
      sys.mem.index = sys.mem.indexE ∨ sys.mem.index < shmDefaultSize
  shown : ∀ yes, op = .click yes → sys.answerp = true →
    sys.mem.indexAssist < assistSize ∧ (sys.request.isSome = true → NonePending sys.mem)

/-- The answer `ui` finds was given on the prompt of the request it waits for, and it
averts the ambulance only if it was a no. -/
def OwnAnswer (traced : Traced) : Prop :=
  traced.sys.request.isSome = true → ∀ text, traced.sys.mem.collected = some text →
    ∃ yes, traced.origin (assistCell (traced.sys.mem.indexAssist - 1)) =
        .click traced.requests yes ∧
      text = (answerMsg yes).data ∧ (text = "NO".toList → yes = false)

/-! ## Adding -/

/-- The last request that waits is the last one made, which the prompt will show when
its turn comes. -/
def Latest (mem : Mem) (origin : Nat → Origin) (requests : Nat) : Prop :=
  ∀ i, mem.indexE ≤ i → i < mem.index → (mem.cells i).type = .assistance →
    (∀ j, i < j → j < mem.index → (mem.cells j).type ≠ .assistance) →
      origin i = .request requests

variable (mem : Mem) (msg : Msg)

/-- A cell behind the messages does not matter for the requests that wait, and neither
does its origin. -/
theorem latest_behind (origin : Nat → Origin) (requests position indexAssist : Nat)
    (source : Origin) (behind : mem.index ≤ position) (latest : Latest mem origin requests) :
    Latest ⟨Function.update mem.cells position msg, mem.index, mem.indexE, indexAssist⟩
      (Function.update origin position source) requests := by
  have apart : ∀ i, i < mem.index → i ≠ position := by
    intro i below
    omega
  intro i lower below request last
  simp only at lower below request last
  rw [Function.update_of_ne (apart i below)] at request ⊢
  refine latest i lower below request ?_
  intro j later within
  have kept := last j later within
  rwa [Function.update_of_ne (apart j within)] at kept

/-- Another message than a request leaves the requests that wait, with the origins of
their cells. -/
theorem add_latest (origin : Nat → Origin) (requests : Nat) (other : msg.type ≠ .assistance)
    (latest : Latest mem origin requests) :
    Latest (addMessage mem msg) (Function.update origin (addPosition mem) .other) requests := by
  by_cases caughtUp : mem.index = mem.indexE
  · rw [add_caught_up mem msg caughtUp]
    intro i _ below request
    obtain rfl : i = 0 := Nat.lt_one_iff.mp below
    simp only [Function.update_self] at request
    exact absurd request other
  have position : addPosition mem = mem.index := if_neg caughtUp
  rw [position]
  by_cases room : mem.index < shmDefaultSize
  · rw [add_behind mem msg caughtUp room]
    intro i lower below request last
    simp only at lower below request last
    have before : i ≠ mem.index := by
      rintro rfl
      rw [Function.update_self] at request
      exact other request
    rw [Function.update_of_ne before] at request ⊢
    refine latest i lower (by omega) request ?_
    intro j later within
    have kept := last j later (by omega)
    rwa [Function.update_of_ne (by omega)] at kept
  · rw [add_full mem msg caughtUp (Nat.not_lt.mp room)]
    exact latest_behind mem msg origin requests mem.index _ .other (Nat.le_refl _) latest

/-- A request that waits still does after an add, so that if none waits then, none did
before. -/
theorem none_pending_of_add (quiet : NonePending (addMessage mem msg)) : NonePending mem := by
  intro i lower below
  by_cases caughtUp : mem.index = mem.indexE
  · omega
  by_cases room : mem.index < shmDefaultSize
  · rw [add_behind mem msg caughtUp room] at quiet
    have kept := quiet i lower (Nat.lt_succ_of_lt below)
    simpa only [Function.update_of_ne (Nat.ne_of_lt below)] using kept
  · rw [add_full mem msg caughtUp (Nat.not_lt.mp room)] at quiet
    have kept := quiet i lower below
    simpa only [Function.update_of_ne (Nat.ne_of_lt below)] using kept

/-- A request with room is the last one that waits, in the cell behind the messages
before it. -/
theorem add_request (origin : Nat → Origin) (number : Nat) (request : msg.type = .assistance)
    (room : mem.index = mem.indexE ∨ mem.index < shmDefaultSize) (ordered : Ordered mem) :
    Latest (addMessage mem msg) (Function.update origin (addPosition mem) (.request number))
        number ∧
      ¬ NonePending (addMessage mem msg) := by
  have caught := ordered.caught
  by_cases caughtUp : mem.index = mem.indexE
  · have position : addPosition mem = 0 := if_pos caughtUp
    rw [add_caught_up mem msg caughtUp, position]
    constructor
    · intro i _ below _ _
      obtain rfl : i = 0 := Nat.lt_one_iff.mp below
      exact Function.update_self ..
    · intro quiet
      have kept := quiet 0 (Nat.le_refl _) Nat.one_pos
      simp only [Function.update_self] at kept
      exact kept request
  · have position : addPosition mem = mem.index := if_neg caughtUp
    rw [add_behind mem msg caughtUp (room.resolve_left caughtUp), position]
    constructor
    · intro i lower below _ last
      simp only at lower below last
      have itself : i = mem.index := by
        by_contra before
        have kept := last mem.index (by omega) (Nat.lt_succ_self _)
        rw [Function.update_self] at kept
        exact kept request
      rw [itself]
      exact Function.update_self ..
    · intro quiet
      have kept := quiet mem.index caught (Nat.lt_succ_self _)
      simp only [Function.update_self] at kept
      exact kept request

/-! ## The invariant -/

/-- What holds at every point of a run of timely steps. It is the invariant of the
module, and its last member is what the main result needs. -/
structure Attributed (traced : Traced) : Prop where
  ordered : Ordered traced.sys.mem
  latest : Latest traced.sys.mem traced.origin traced.requests
  /-- Once every request has been shown, a visible prompt is that of the last. -/
  shown : NonePending traced.sys.mem → traced.sys.answerp = true →
    traced.prompt = traced.requests
  /-- An answer that waits for `ui` was given on the prompt of its request. -/
  answer : traced.sys.request.isSome = true → 0 < traced.sys.mem.indexAssist →
    ∃ yes, traced.origin (assistCell (traced.sys.mem.indexAssist - 1)) =
        .click traced.requests yes ∧
      traced.sys.mem.cells (assistCell (traced.sys.mem.indexAssist - 1)) = answerMsg yes

/-- Before the first request there is nothing to attribute. -/
theorem initial_attributed : Attributed .initial where
  ordered := ⟨Nat.le_refl _, Nat.zero_le _⟩
  latest _ _ below := absurd below (Nat.not_lt_zero _)
  shown _ visible := absurd visible Bool.false_ne_true
  answer waits := absurd waits Bool.false_ne_true

section Moves

variable (traced : Traced)

/-- Another message than a request keeps the invariant while no request waits for its
answer, for the prompts and their order stay what they are. -/
theorem message_attributed (attributed : Attributed traced) (request : Option MsgMail)
    (indexAssist : Nat) (other : msg.type ≠ .assistance) (idle : request.isSome = false) :
    Attributed ⟨⟨addMessage { traced.sys.mem with indexAssist := indexAssist } msg, request,
        traced.sys.answerp, traced.sys.view⟩, traced.requests, traced.prompt,
      Function.update traced.origin (addPosition traced.sys.mem) .other⟩ where
  ordered := add_ordered _ msg ⟨attributed.ordered.caught, attributed.ordered.inside⟩
  latest := add_latest { traced.sys.mem with indexAssist := indexAssist } msg _ _ other
    attributed.latest
  shown quiet visible := attributed.shown (none_pending_of_add
    { traced.sys.mem with indexAssist := indexAssist } msg quiet) visible
  answer waits := by simp [idle] at waits

/-- A request that finds room is the last, and has to be shown first before its prompt
can be clicked on. -/
theorem request_attributed (attributed : Attributed traced) (request : Option MsgMail)
    (asks : msg.type = .assistance)
    (room : traced.sys.mem.index = traced.sys.mem.indexE ∨
      traced.sys.mem.index < shmDefaultSize) :
    Attributed ⟨⟨{ addMessage traced.sys.mem msg with indexAssist := 0 }, request,
        traced.sys.answerp, traced.sys.view⟩, traced.requests + 1, traced.prompt,
      Function.update traced.origin (addPosition traced.sys.mem)
        (.request (traced.requests + 1))⟩ := by
  obtain ⟨last, pending⟩ := add_request traced.sys.mem msg traced.origin (traced.requests + 1)
    asks room attributed.ordered
  have kept := add_ordered traced.sys.mem msg attributed.ordered
  refine ⟨⟨kept.caught, kept.inside⟩, last, ?_, ?_⟩
  · intro quiet
    exact absurd quiet pending
  · intro _ some
    exact absurd some (Nat.lt_irrefl 0)

/-- The display takes the next message, and the prompt is still that of the last request
when no other waits. -/
theorem displayed_attributed (attributed : Attributed traced) (answerp : Bool) (view : Text)
    (prompt : Nat) (waiting : traced.sys.mem.index ≠ traced.sys.mem.indexE)
    (shown : NonePending { traced.sys.mem with indexE := traced.sys.mem.indexE + 1 } →
      answerp = true → prompt = traced.requests) :
    Attributed ⟨⟨{ traced.sys.mem with indexE := traced.sys.mem.indexE + 1 },
        traced.sys.request, answerp, view⟩, traced.requests, prompt, traced.origin⟩ := by
  have caught := attributed.ordered.caught
  refine ⟨⟨?_, attributed.ordered.inside⟩, ?_, shown, attributed.answer⟩
  · simp only
    omega
  · intro i lower below
    exact attributed.latest i (Nat.le_of_succ_le lower) below

/-- A click on the prompt of the request that waits is its answer, because that prompt
is the newest. -/
theorem clicked_attributed (attributed : Attributed traced) (yes : Bool)
    (visible : traced.sys.answerp = true)
    (seen : traced.sys.request.isSome = true → NonePending traced.sys.mem) :
    Attributed ⟨⟨{ traced.sys.mem with
          cells := Function.update traced.sys.mem.cells (assistCell traced.sys.mem.indexAssist)
            (answerMsg yes)
          indexAssist := traced.sys.mem.indexAssist + 1 },
        traced.sys.request, false, traced.sys.view⟩, traced.requests, traced.prompt,
      Function.update traced.origin (assistCell traced.sys.mem.indexAssist)
        (.click traced.prompt yes)⟩ := by
  have ordered := attributed.ordered
  refine ⟨⟨ordered.caught, ordered.inside⟩, ?_, ?_, ?_⟩
  · have behind : traced.sys.mem.index ≤ assistCell traced.sys.mem.indexAssist :=
      Nat.le_trans ordered.inside (Nat.le_add_right _ _)
    exact latest_behind traced.sys.mem _ _ _ _ _ _ behind attributed.latest
  · intro _ gone
    exact absurd gone Bool.false_ne_true
  · intro waits _
    have own := attributed.shown (seen waits) visible
    refine ⟨yes, ?_, ?_⟩
    · simp only [Nat.add_sub_cancel, Function.update_self, own]
    · simp only [Nat.add_sub_cancel, Function.update_self]

end Moves

/-- A timely step keeps the invariant, by cases on the step: only requests, prompts and
clicks change anything that it speaks of. -/
theorem moves_attributed (traced : Traced) (op : Op) (after : System)
    (moves : Moves traced.sys op after) (timely : Timely traced.sys op)
    (attributed : Attributed traced) :
    Attributed ⟨after, requestsAfter traced op, promptAfter traced op, originAfter traced op⟩ := by
  cases moves with
  | busy mail waits =>
    have none : addedMsg traced.sys (.receive mail) = none := by simp [addedMsg, waits]
    simp only [requestsAfter, promptAfter, originAfter, none]
    exact attributed
  | unknown mail idle untyped =>
    have none : addedMsg traced.sys (.receive mail) = none := by simp [addedMsg, idle, untyped]
    simp only [requestsAfter, promptAfter, originAfter, none]
    exact attributed
  | notice mail idle type known other =>
    have added : addedMsg traced.sys (.receive mail) = some (mail.message type) := by
      simp [addedMsg, idle, known]
    have plain : (mail.message type).type ≠ .assistance := other
    simp only [requestsAfter, promptAfter, originAfter, added, if_neg plain]
    exact message_attributed _ traced attributed _ _ plain idle
  | asks mail idle known =>
    have added : addedMsg traced.sys (.receive mail) = some (mail.message .assistance) := by
      simp [addedMsg, idle, known]
    have request : (mail.message .assistance).type = .assistance := rfl
    simp only [requestsAfter, promptAfter, originAfter, added, if_pos request]
    exact request_attributed _ traced attributed _ request (timely.room mail rfl idle known)
  | asleep idle =>
    have none : addedMsg traced.sys .collect = none := by simp [addedMsg, idle]
    simp only [requestsAfter, promptAfter, originAfter, none]
    exact attributed
  | reacts waits ambulance msg reacts other =>
    have added : addedMsg traced.sys .collect = some msg := by simp [addedMsg, waits, reacts]
    simp only [requestsAfter, promptAfter, originAfter, added, if_neg other]
    exact message_attributed msg traced attributed none _ other rfl
  | ignores waits nothing =>
    have none : addedMsg traced.sys .collect = none := by simp [addedMsg, nothing]
    simp only [requestsAfter, promptAfter, originAfter, none]
    obtain ⟨ordered, latest, shown, _⟩ := attributed
    refine ⟨⟨ordered.caught, ordered.inside⟩, latest, shown, ?_⟩
    intro done
    exact absurd done Bool.false_ne_true
  | caughtUp same =>
    have quiet : ¬ (traced.sys.mem.index ≠ traced.sys.mem.indexE ∧
        (traced.sys.mem.cells traced.sys.mem.indexE).type = .assistance) := fun both => both.1 same
    simp only [requestsAfter, promptAfter, originAfter, addedMsg, if_neg quiet]
    exact attributed
  | shows waiting other answerp view hides =>
    have quiet : ¬ (traced.sys.mem.index ≠ traced.sys.mem.indexE ∧
        (traced.sys.mem.cells traced.sys.mem.indexE).type = .assistance) := fun both => other both.2
    simp only [requestsAfter, promptAfter, originAfter, addedMsg, if_neg quiet]
    apply displayed_attributed traced attributed answerp view traced.prompt waiting
    intro none visible
    refine attributed.shown ?_ (hides visible)
    intro i lower below
    by_cases first : i = traced.sys.mem.indexE
    · rwa [first]
    · exact none i (by simp only; omega) below
  | prompts waiting request =>
    simp only [requestsAfter, promptAfter, originAfter, addedMsg,
      if_pos (And.intro waiting request)]
    apply displayed_attributed traced attributed true traced.sys.view _ waiting
    intro none _
    have caught := attributed.ordered.caught
    have own := attributed.latest traced.sys.mem.indexE (Nat.le_refl _) (by omega) request
      fun j later within => none j later within
    rw [own, Origin.number]
  | hidden yes invisible =>
    simp only [requestsAfter, promptAfter, originAfter, invisible, Bool.false_eq_true, false_and,
      if_false]
    exact attributed
  | clicks yes visible room =>
    simp only [requestsAfter, promptAfter, originAfter, visible, room, true_and, if_true]
    exact clicked_attributed traced attributed yes visible (timely.shown yes rfl visible).2
  | beyond yes visible full =>
    exact absurd (timely.shown yes rfl visible).1 (Nat.not_lt.mpr full)

/-- The invariant makes the answer that `ui` finds its own, which is the whole use of
it. -/
theorem own_answer (traced : Traced) (attributed : Attributed traced) : OwnAnswer traced := by
  intro waits text found
  unfold Mem.collected at found
  split_ifs at found with some
  obtain ⟨yes, origin, cell⟩ := attributed.answer waits some
  refine ⟨yes, origin, ?_, ?_⟩
  · rw [← Option.some.inj found, cell]
  · intro no
    rw [← Option.some.inj found, cell] at no
    cases yes with
    | false => rfl
    | true => exact absurd no (by decide)

/-- In every interleaving of timely steps, whenever `ui` collects an answer it was given
on the prompt of the request that `ui` waits for.

Proof: `Attributed` holds initially and after every timely step, and says of the answer
that waits in the shared array that it is the answer to the last request. -/
theorem answers_own (ops : List Op)
    (timely : Runs.EveryStep next .initial ops fun _ traced op => Timely traced.sys op) :
    Runs.EveryStep next .initial ops fun _ traced op => op = .collect → OwnAnswer traced := by
  intro before op rest split _
  apply own_answer
  exact Runs.invariant_of_every (fun _ traced => Attributed traced)
    (fun _ traced op => Timely traced.sys op) initial_attributed
    (fun _ traced op attributed timely =>
      moves_attributed traced op _ (next_moves traced.sys op) timely attributed)
    ops timely before (op :: rest) split

/-- A request for help, as the source makes it: the code 1, the kind and the text of it. -/
def help : Op := .receive ⟨1, "ASSIST".toList, "Medical attention".toList, by decide⟩

/-- A request that is shown, answered with a no and collected, in that order and without
another request in between. -/
theorem shown_request_own :
    Runs.EveryStep next .initial [help, .notif, .click false, .collect]
      fun _ traced op => op = .collect → OwnAnswer traced := by
  apply answers_own
  simp only [Runs.every_step_cons]
  refine ⟨⟨?_, ?_⟩, ⟨?_, ?_⟩, ⟨?_, ?_⟩, ⟨?_, ?_⟩, Runs.every_step_nil _ _ _⟩
  · intro _ _ _ _
    exact .inl rfl
  · intro _ click
    cases click
  · intro _ receive
    cases receive
  · intro _ click
    cases click
  · intro _ receive
    cases receive
  · intro _ _ _
    refine ⟨by decide, fun _ i lower below => ?_⟩
    exact absurd (Nat.lt_of_lt_of_le below lower) (Nat.lt_irrefl i)
  · intro _ receive
    cases receive
  · intro _ click
    cases click

/-- A prompt that has timed out is still visible when the next request is made. A no on
it averts the ambulance of that request. -/
theorem late_no_averts :
    ¬ Runs.EveryStep next .initial [help, .notif, .collect, help, .click false, .collect]
      fun _ traced op => op = .collect → OwnAnswer traced := by
  intro every
  have own := every [help, .notif, .collect, help, .click false] .collect [] rfl rfl
  obtain ⟨yes, clicked, _⟩ := own (by decide) "NO".toList (by decide)
  have first : (Runs.after next .initial [help, .notif, .collect, help, .click false]).origin
      (assistCell 0) = .click 1 false := by decide
  have same := first.symm.trans clicked
  have number := (Origin.click.inj same).1
  revert number
  decide

end EventRecorder.Answers
