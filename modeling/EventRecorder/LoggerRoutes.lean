import EventRecorder.Routing

/-!
# Two ways to the logger

The mails that safety has for the logger go through the postman, or in the other
build straight to the logger's box. Every queue keeps the mails of one producer in
order; between the steps of one thread any other may run, and each takes its next
mail from whatever producer it likes.

A mail in a queue carries the mark whether safety sent it. The postman's log mail,
which it sends in place of one nobody subscribed to, is the postman's own. Where the
postman reads behind its table or sends to the box it has no queue for, the program
breaks, and nothing runs any more.

The driver-assistance mails of safety are none for the logger and count among those
of the other threads, whose types are routable and none of which announces the end
of a crash.
-/

namespace EventRecorder.LoggerRoutes

open Arithmetic CText PostOffice Subscriptions Postman Routing

universe u
variable {F : Type u}

/-- `POSTMAN_OPT`: through the postman, or straight to the logger. It is chosen at
compile time. -/
inductive PostmanOpt where
  | postman
  | direct
  deriving DecidableEq

/-- `loggerd.msgbox`: the box behind that of the postman. -/
def loggerBox : Int := 1

/-- The logger's subscription: its box, and records for the storage. -/
def loggerCaller : Caller := ⟨1, 16⟩

/-- The types the postman routes, by the row they select: all below `MT_MAX` but those
that share the row of its own. -/
def Routable (type : Int) : Prop := 0 ≤ type ∧ type < 512 ∧ (type ≤ 64 ∨ 128 ≤ type)

instance (type : Int) : Decidable (Routable type) := inferInstanceAs (Decidable (_ ∧ _))

/-- The mails `logger` hands to `DB_LOG`: those for the storage that carry a record. -/
def logs (mail : Mail F) : Bool := mail.type = mtStorage ∧ mail.logType.isSome

/-- The mail on which `logger` stops: the record of the end of a crash. -/
def ends (mail : Mail F) : Bool := mail.type = mtStorage ∧ mail.logType = some .eventCrashEnd

/-- A mail in a queue, and whether safety sent it, which the program itself does not
know. -/
structure Letter (F : Type u) where
  mail : Mail F
  own : Bool

/-- A mail of another thread. It is routable, and does not announce the end of a crash. -/
structure Foreign (F : Type u) where
  mail : Mail F
  routable : Routable mail.type
  goes_on : ends mail = false

/-- What safety has still to send, the queues by producer, the postman's log mail, and
what the logger has taken. -/
structure Routes (F : Type u) where
  pending : List (Mail F)
  toPostman : List (Letter F)
  others : Nat → List (Letter F)
  log : Mail F
  fromPostman : List (Letter F)
  fromSafety : List (Letter F)
  handled : List (Letter F)
  stopped : Bool
  broken : Bool

/-- Before anything is sent: safety has all its mails to send, and the queues are empty. -/
def begin (mails : List (Mail F)) : Routes F where
  pending := mails
  toPostman := []
  others _ := []
  log := mailLog []
  fromPostman := []
  fromSafety := []
  handled := []
  stopped := false
  broken := false

/-- The steps of the threads. The postman names the producer whose mail it takes, none
for safety, and the logger whether that is safety. -/
inductive Action (F : Type u) where
  | safety
  | other (thread : Nat) (mail : Foreign F)
  | postman (thread : Option Nat)
  | logger (fromSafety : Bool)

/-- `logger` takes a mail, and stops if that is the end of a crash. -/
def loggerTakes (state : Routes F) (letter : Letter F) : Routes F :=
  { state with handled := state.handled ++ [letter], stopped := ends letter.mail }

/-- The mails of safety for the storage, in order: what the two ways are compared by. -/
def ownMails (letters : List (Letter F)) : List (Mail F) :=
  (letters.filter fun letter => letter.own ∧ letter.mail.type = mtStorage).map Letter.mail

/-- The mails of type `MT_STORAGE`, in order, whatever they carry. -/
def storageMails (mails : List (Mail F)) : List (Mail F) :=
  mails.filter fun mail => mail.type = mtStorage

/-- The mails up to the first that announces the end of a crash, and with it. -/
def untilEnd : List (Mail F) → List (Mail F)
  | [] => []
  | mail :: rest => if ends mail then [mail] else mail :: untilEnd rest

/-- The logger has stopped, or it will get no further mail of safety since all have been
taken, or the program is broken. -/
def Finished (state : Routes F) : Prop :=
  state.stopped = true ∨ state.broken = true ∨
    state.pending = [] ∧ state.toPostman = [] ∧ state.fromPostman = [] ∧ state.fromSafety = []

section

variable [Arithmetic F] (mailDataSize : Nat) (office : Office)

/-- The step in which the postman takes the oldest mail off its queue and puts a copy
into each queue that the table gives for its type. -/
def postmanTakes (state : Routes F) (letter : Letter F) : Routes F :=
  match turn mailDataSize office state.log letter.mail with
  | none => { state with broken := true }
  | some taken =>
    if taken.sent.any (·.1 = 0) then { state with broken := true }
    else
      { state with
        log := taken.log
        fromPostman := state.fromPostman ++ (received loggerBox taken.sent).map
          (⟨·, letter.own && !taken.unsubscribed⟩) }

/-- One step of a thread. With an empty queue, or once the logger has stopped, it does
nothing. -/
def step (opt : PostmanOpt) (state : Routes F) (action : Action F) : Routes F :=
  if state.broken then state
  else
    match action with
    | .safety =>
      match state.pending with
      | [] => state
      | mail :: rest =>
        match opt with
        | .postman =>
          { state with pending := rest, toPostman := state.toPostman ++ [⟨mail, true⟩] }
        | .direct =>
          { state with pending := rest, fromSafety := state.fromSafety ++ [⟨mail, true⟩] }
    | .other thread foreign =>
      let letters := state.others thread ++ [⟨foreign.mail, false⟩]
      { state with others := Function.update state.others thread letters }
    | .postman none =>
      match state.toPostman with
      | [] => state
      | letter :: rest => postmanTakes mailDataSize office { state with toPostman := rest } letter
    | .postman (some thread) =>
      match state.others thread with
      | [] => state
      | letter :: rest =>
        postmanTakes mailDataSize office
          { state with others := Function.update state.others thread rest } letter
    | .logger fromSafety =>
      if state.stopped then state
      else if fromSafety then
        match state.fromSafety with
        | [] => state
        | letter :: rest => loggerTakes { state with fromSafety := rest } letter
      else
        match state.fromPostman with
        | [] => state
        | letter :: rest => loggerTakes { state with fromPostman := rest } letter

/-- The records of a logger's own mails that the storage queue holds after a run, in the
order in which the postman put them there. -/
def reached (opt : PostmanOpt) (mails : List (Mail F)) (actions : List (Action F)) : Routes F :=
  Runs.after (step mailDataSize office opt) (begin mails) actions

/-- Two systems are alike for a logger when they differ in the way its mails travel
only: the records that reach the storage are the same. -/
structure Alike (mails : List (Mail F)) : Prop where
  /-- What it handles of them is in sending order and without a gap. -/
  order : ∀ opt actions, ownMails (reached mailDataSize office opt mails actions).handled <+:
    untilEnd (storageMails mails)
  /-- In the end it has handled all of them, up to the end of a crash. -/
  complete : ∀ opt actions, Finished (reached mailDataSize office opt mails actions) →
    ownMails (reached mailDataSize office opt mails actions).handled =
      untilEnd (storageMails mails)
  /-- So the two ways agree. -/
  same : ∀ actions direct, Finished (reached mailDataSize office .postman mails actions) →
    Finished (reached mailDataSize office .direct mails direct) →
      ownMails (reached mailDataSize office .postman mails actions).handled =
        ownMails (reached mailDataSize office .direct mails direct).handled
  /-- When it stops, every record before the end of the crash was handed to `DB_LOG`. -/
  logged : ∀ opt actions, (reached mailDataSize office opt mails actions).stopped = true →
    (ownMails (reached mailDataSize office opt mails actions).handled).filter logs =
      (untilEnd (storageMails mails)).filter logs
  /-- The end can be reached from wherever the threads are. -/
  finishes : ∀ opt actions, ∃ more,
    Finished (reached mailDataSize office opt mails (actions ++ more))

end

/-! ## Up to the end of a crash -/

/-- In a list without an end of a log there is nothing to cut off, so that all of it
comes before the first end. -/
theorem until_end_none (mails : List (Mail F)) (running : ∀ mail ∈ mails, ends mail = false) :
    untilEnd mails = mails := by
  induction mails with
  | nil => rfl
  | cons mail mails inductionHypothesis =>
    obtain ⟨first, others⟩ := List.forall_mem_cons.mp running
    rw [untilEnd, first, inductionHypothesis others]
    rfl

/-- What comes before the first end of a log in a list of mails and then others: the
first part, and the others too if it has no end. -/
theorem until_end_append (earlier later : List (Mail F))
    (running : ∀ mail ∈ earlier, ends mail = false) :
    untilEnd (earlier ++ later) = earlier ++ untilEnd later := by
  induction earlier with
  | nil => rfl
  | cons mail earlier inductionHypothesis =>
    obtain ⟨first, others⟩ := List.forall_mem_cons.mp running
    rw [List.cons_append, untilEnd, first, inductionHypothesis others]
    rfl

/-- The mails of one sender are picked one by one, so that those of two lists in a row
are those of the first and those of the second. -/
@[simp] theorem own_mails_append (earlier later : List (Letter F)) :
    ownMails (earlier ++ later) = ownMails earlier ++ ownMails later := by
  simp [ownMails]

/-- Nobody has sent anything in an empty list of mails. -/
@[simp] theorem own_mails_nil : ownMails ([] : List (Letter F)) = [] := rfl

/-- A list in which every mail is of somebody else holds none of the logger's own. -/
theorem own_mails_none (letters : List (Letter F))
    (others : ∀ letter ∈ letters, letter.own = true → letter.mail.type ≠ mtStorage) :
    ownMails letters = [] := by
  rw [ownMails, List.map_eq_nil_iff, List.filter_eq_nil_iff]
  intro letter member
  simpa using others letter member

/-- The mail that ends a log is told from the others by its type alone, whatever it
carries beside it. -/
@[simp] theorem ends_log (errs : Text) : ends (mailLog errs : Mail F) = false := rfl

/-- Of one mail in a list, either it is the logger's own and stays, or it is of somebody
else and nothing does. -/
theorem own_mails_single (letter : Letter F) :
    ownMails [letter] =
      if letter.own = true ∧ letter.mail.type = mtStorage then [letter.mail] else [] := by
  by_cases counts : letter.own = true ∧ letter.mail.type = mtStorage
  · simp [ownMails, counts]
  · rw [if_neg counts]
    apply own_mails_none
    intro other member
    obtain rfl := List.mem_singleton.mp member
    exact fun own storage => counts ⟨own, storage⟩

/-! ## One turn of the postman -/

/-- The table of subscriptions is the one the processes build at start-up, as far as the
types the logger sends and receives are concerned. -/
structure Wired (callers : List Caller) (office : Office) : Prop where
  built : Built callers office
  postman : postmanCaller ∈ callers
  logger : loggerCaller ∈ callers

section

variable [Arithmetic F] {callers : List Caller} {office : Office}

/-- The logger is among the storage boxes, and so gets what is for the storage. -/
theorem logger_mem_row (exact : Exact callers office)
    (logger : loggerCaller ∈ callers) : loggerBox ∈ office.row 4 := by
  rw [(exact.rows 4 (by decide)).mem_iff]
  exact List.mem_map.mpr ⟨loggerCaller, List.mem_filter.mpr ⟨logger, by decide⟩, rfl⟩

/-- A routable mail goes to the boxes of a row, those of the storage if it is for the
storage. One that nobody subscribed to is not, and the log mail goes there instead. -/
theorem turn_boxes (exact : Exact callers office)
    (logger : loggerCaller ∈ callers) (mailDataSize : Nat) (errs : Text) (mail : Mail F)
    (routable : Routable mail.type) :
    (∃ boxes : List Int, boxes.Nodup ∧ (mail.type = mtStorage → loggerBox ∈ boxes) ∧
      turn mailDataSize office (mailLog errs) mail =
        some ⟨mailLog errs, boxes.map (·, mail), false⟩) ∨
    mail.type ≠ mtStorage ∧ ∃ text : Text,
      turn mailDataSize office (mailLog errs) mail =
        some ⟨mailLog text, (office.row 4).map (·, mailLog text), true⟩ := by
  by_cases emergency : mail.type = mtPostman
  · refine .inl ⟨[], List.nodup_nil, ?_, by simp [turn, emergency]⟩
    rw [emergency]
    decide
  by_cases zero : mail.type = 0
  · have turned := turn_zero mailDataSize office (mailLog errs) mail zero
    rw [nobody_eq] at turned
    refine .inr ⟨?_, _, turned⟩
    rw [zero]
    decide
  obtain ⟨lower, upper, _⟩ := routable
  obtain ⟨row, selects, inTable, _⟩ := log2_row mail.type (by omega)
  have below := inTable.mpr upper
  have turned := turn_row mailDataSize office (mailLog errs) mail row selects below emergency
  have storageRow (storage : mail.type = mtStorage) : loggerBox ∈ office.row row := by
    rw [storage, log2_storage] at selects
    obtain rfl := Option.some.inj selects
    exact logger_mem_row exact logger
  by_cases empty : office.sSize row = 0
  · rw [if_pos empty, nobody_eq] at turned
    refine .inr ⟨?_, _, turned⟩
    intro storage
    have member := storageRow storage
    simp [Office.row, empty] at member
  · rw [if_neg empty] at turned
    exact .inl ⟨office.row row, exact.once row below, storageRow, turned⟩

/-- What the postman puts into the logger's queue for a routable mail: the mail, its own
log mail or nothing, and the mails of safety for the storage in any case. -/
theorem postman_takes (wired : Wired callers office) (mailDataSize : Nat) (state : Routes F)
    (errs : Text) (log : state.log = mailLog errs) (letter : Letter F)
    (routable : Routable letter.mail.type) :
    ∃ (text : Text) (added : List (Letter F)),
      postmanTakes mailDataSize office state letter =
          { state with log := mailLog text, fromPostman := state.fromPostman ++ added } ∧
        ownMails added = ownMails [letter] ∧ added.length ≤ 1 ∧
        ∀ other ∈ added, other = letter ∨ other.own = false ∧ ends other.mail = false := by
  have int : letter.mail.type < 2 ^ 31 := by
    obtain ⟨_, upper, _⟩ := routable
    omega
  have safe := (safe_iff wired.built wired.postman mailDataSize errs letter.mail int).mpr routable
  have taken (text : Text) (boxes : List Int) (mail : Mail F) (unsubscribed : Bool)
      (turned : turn mailDataSize office (mailLog errs) letter.mail =
        some ⟨mailLog text, boxes.map (·, mail), unsubscribed⟩) :
      postmanTakes mailDataSize office state letter =
        { state with
          log := mailLog text
          fromPostman := state.fromPostman ++ (received loggerBox (boxes.map (·, mail))).map
            (⟨·, letter.own && !unsubscribed⟩) } := by
    obtain ⟨_, again, sends, _⟩ := safe
    obtain rfl := Option.some.inj (turned.symm.trans again)
    have noZero : ¬ (boxes.map (·, mail)).any (·.1 = 0) := by
      simp only [List.any_eq_true, decide_eq_true_eq, not_exists, not_and]
      exact sends
    rw [postmanTakes, log, turned]
    exact if_neg noZero
  rcases turn_boxes wired.built.exact wired.logger mailDataSize errs letter.mail routable with
    ⟨boxes, once, storage, turned⟩ | ⟨other, text, turned⟩
  · refine ⟨_, _, taken _ _ _ _ turned, ?_⟩
    rw [received_boxes boxes loggerBox letter.mail once]
    by_cases member : loggerBox ∈ boxes
    · simp [member]
    · have other : letter.mail.type ≠ mtStorage := fun same => member (storage same)
      simp [member, own_mails_single, other]
  · refine ⟨_, _, taken _ _ _ _ turned, ?_⟩
    rw [received_boxes _ loggerBox _ (wired.built.exact.once 4 (by decide)),
      if_pos (logger_mem_row wired.built.exact wired.logger)]
    simp [own_mails_single, other]

end

/-! ## Any schedule -/

/-- What safety sends for the storage is with the logger, on its way or still to be
sent, in this order, and every letter on its way to the postman is routable. The end
of a crash is announced by safety alone. -/
structure Sound (opt : PostmanOpt) (mails : List (Mail F)) (state : Routes F) : Prop where
  log : ∃ errs, state.log = mailLog errs
  whole : state.broken = false
  pending : ∀ mail ∈ state.pending, Routable mail.type
  toPostman : ∀ letter ∈ state.toPostman, letter.own = true ∧ Routable letter.mail.type
  others : ∀ thread, ∀ letter ∈ state.others thread,
    letter.own = false ∧ Routable letter.mail.type ∧ ends letter.mail = false
  fromPostman : ∀ letter ∈ state.fromPostman, letter.own = true ∨ ends letter.mail = false
  fromSafety : ∀ letter ∈ state.fromSafety, letter.own = true
  /-- Only one way is in use. -/
  way : opt = .postman ∧ state.fromSafety = [] ∨
    opt = .direct ∧ state.toPostman = [] ∧ ownMails state.fromPostman = []
  flow : ownMails state.handled ++ (ownMails state.fromPostman ++ (ownMails state.fromSafety ++
    (ownMails state.toPostman ++ storageMails state.pending))) = storageMails mails
  running : state.stopped = false → ∀ mail ∈ ownMails state.handled, ends mail = false
  ended : state.stopped = true →
    ∀ rest, untilEnd (ownMails state.handled ++ rest) = ownMails state.handled

/-- Nothing has been sent yet, and all mails of safety are still pending. -/
theorem begin_sound (opt : PostmanOpt) (mails : List (Mail F))
    (routable : ∀ mail ∈ mails, Routable mail.type) : Sound opt mails (begin mails) where
  log := ⟨[], rfl⟩
  whole := rfl
  pending := routable
  toPostman := by simp [begin]
  others := by simp [begin]
  fromPostman := by simp [begin]
  fromSafety := by simp [begin]
  way := by
    cases opt with
    | postman => exact .inl ⟨rfl, rfl⟩
    | direct => exact .inr ⟨rfl, rfl, rfl⟩
  flow := rfl
  running := by simp [begin]
  ended := by simp [begin]

/-- The first letter of a queue is the first of its mails, if it is safety's and for the
storage. -/
theorem own_mails_cons (letter : Letter F) (rest : List (Letter F)) :
    ownMails (letter :: rest) = ownMails [letter] ++ ownMails rest :=
  own_mails_append [letter] rest

/-- The mails of one letter are its own, or none. -/
theorem mem_own_mails_single (letter : Letter F) (mail : Mail F)
    (member : mail ∈ ownMails [letter]) : mail = letter.mail := by
  rw [own_mails_single] at member
  split_ifs at member
  · exact List.mem_singleton.mp member
  · cases member

/-- The logger takes a letter, and stops on the end of a crash. Only a letter of safety
can be one, as no other thread announces it. -/
theorem takes_until_end (handled : List (Letter F)) (letter : Letter F)
    (running : ∀ mail ∈ ownMails handled, ends mail = false)
    (closing : letter.own = true ∨ ends letter.mail = false) :
    (ends letter.mail = false → ∀ mail ∈ ownMails (handled ++ [letter]), ends mail = false) ∧
      (ends letter.mail = true → ∀ rest,
        untilEnd (ownMails (handled ++ [letter]) ++ rest) = ownMails (handled ++ [letter])) := by
  rw [own_mails_append]
  constructor
  · intro on mail member
    rcases List.mem_append.mp member with earlier | last
    · exact running mail earlier
    · rw [mem_own_mails_single letter mail last]
      exact on
  · intro closes rest
    have own : letter.own = true := closing.resolve_right (by simp [closes])
    have storage : letter.mail.type = mtStorage := (of_decide_eq_true closes).1
    rw [own_mails_single, if_pos ⟨own, storage⟩, List.append_assoc,
      until_end_append _ _ running, List.singleton_append, untilEnd, if_pos closes]

/-- Safety sends its next mail, by the one way or the other; what is on its way stays
the same in its order. -/
theorem sends_sound (mails : List (Mail F)) (state : Routes F) (opt : PostmanOpt) (mail : Mail F)
    (rest : List (Mail F)) (next : state.pending = mail :: rest) (sound : Sound opt mails state) :
    Sound opt mails (match opt with
      | .postman => { state with pending := rest, toPostman := state.toPostman ++ [⟨mail, true⟩] }
      | .direct =>
        { state with pending := rest, fromSafety := state.fromSafety ++ [⟨mail, true⟩] }) := by
  have routable := sound.pending
  have flow := sound.flow
  rw [next] at routable flow
  obtain ⟨first, others⟩ := List.forall_mem_cons.mp routable
  have moved : storageMails (mail :: rest) = ownMails [⟨mail, true⟩] ++ storageMails rest := by
    rw [own_mails_single]
    by_cases storage : mail.type = mtStorage <;> simp [storageMails, storage]
  rw [moved] at flow
  rcases sound.way with ⟨rfl, direct⟩ | ⟨rfl, none, foreign⟩
  · refine { sound with
      pending := others
      toPostman := ?_
      way := .inl ⟨rfl, direct⟩
      flow := ?_ }
    · simpa [or_imp, forall_and, first] using sound.toPostman
    · simpa using flow
  · refine { sound with
      pending := others
      fromSafety := ?_
      way := .inr ⟨rfl, none, foreign⟩
      flow := ?_ }
    · simpa [or_imp, forall_and] using sound.fromSafety
    · simpa [none] using flow

/-- Another thread sends a mail, which is none of safety's. -/
theorem other_sound (opt : PostmanOpt) (mails : List (Mail F)) (state : Routes F) (thread : Nat)
    (foreign : Foreign F) (sound : Sound opt mails state) :
    Sound opt mails { state with
      others := Function.update state.others thread
        (state.others thread ++ [⟨foreign.mail, false⟩]) } := by
  refine { sound with others := ?_ }
  intro sender letter member
  by_cases same : sender = thread
  · subst same
    simp only [Function.update_self, List.mem_append, List.mem_singleton] at member
    rcases member with earlier | rfl
    · exact sound.others sender letter earlier
    · exact ⟨rfl, foreign.routable, foreign.goes_on⟩
  · simp only [Function.update_of_ne same] at member
    exact sound.others sender letter member

/-- The postman takes a letter of safety, which is routable, and hands it on while it is
for the storage. -/
theorem takes_own_sound (opt : PostmanOpt) (mails : List (Mail F)) (state : Routes F)
    (letter : Letter F) (rest : List (Letter F)) (next : state.toPostman = letter :: rest)
    (sound : Sound opt mails state) : Routable letter.mail.type ∧
      Sound opt mails { state with
        toPostman := rest
        fromPostman := state.fromPostman ++ [letter] } := by
  have routable := sound.toPostman
  have flow := sound.flow
  rw [next] at routable flow
  obtain ⟨⟨own, first⟩, others⟩ := List.forall_mem_cons.mp routable
  rcases sound.way with ⟨rfl, direct⟩ | ⟨rfl, none, _⟩
  · rw [own_mails_cons, direct] at flow
    refine ⟨first, { sound with
      toPostman := others
      fromPostman := ?_
      way := .inl ⟨rfl, direct⟩
      flow := ?_ }⟩
    · simpa [or_imp, forall_and, own] using sound.fromPostman
    · simpa [direct] using flow
  · rw [next] at none
    cases none

/-- The postman takes a letter of another thread, of which the logger may get a copy
that is not safety's. -/
theorem takes_other_sound (opt : PostmanOpt) (mails : List (Mail F)) (state : Routes F)
    (thread : Nat) (letter : Letter F) (rest : List (Letter F))
    (next : state.others thread = letter :: rest) (sound : Sound opt mails state) :
    Routable letter.mail.type ∧
      Sound opt mails { state with
        others := Function.update state.others thread rest
        fromPostman := state.fromPostman ++ [letter] } := by
  have foreign := sound.others thread
  rw [next] at foreign
  obtain ⟨⟨other, routable, on⟩, later⟩ := List.forall_mem_cons.mp foreign
  have none : ownMails [letter] = [] := by simp [own_mails_single, other]
  refine ⟨routable, { sound with others := ?_, fromPostman := ?_, way := ?_, flow := ?_ }⟩
  · intro sender among member
    by_cases same : sender = thread
    · subst same
      simp only [Function.update_self] at member
      exact later among member
    · simp only [Function.update_of_ne same] at member
      exact sound.others sender among member
  · simpa [or_imp, forall_and, on] using sound.fromPostman
  · simpa [none] using sound.way
  · simpa [none] using sound.flow

/-- The logger takes a letter from the postman. If that is the end of a crash, what is
behind it is of no account any more. -/
theorem handles_postman_sound (opt : PostmanOpt) (mails : List (Mail F)) (state : Routes F)
    (letter : Letter F) (rest : List (Letter F)) (next : state.fromPostman = letter :: rest)
    (on : state.stopped = false) (sound : Sound opt mails state) :
    Sound opt mails (loggerTakes { state with fromPostman := rest } letter) := by
  have closing := sound.fromPostman
  have flow := sound.flow
  have way := sound.way
  rw [next] at closing flow way
  obtain ⟨first, others⟩ := List.forall_mem_cons.mp closing
  obtain ⟨running, ended⟩ := takes_until_end state.handled letter (sound.running on) first
  rw [own_mails_cons] at flow way
  refine { sound with
    fromPostman := others
    way := ?_
    flow := ?_
    running := running
    ended := ended }
  · refine way.imp_right fun direct => ⟨direct.1, direct.2.1, ?_⟩
    exact (List.append_eq_nil_iff.mp direct.2.2).2
  · simpa [loggerTakes] using flow

/-- The logger takes a letter from safety, in the build in which it has a queue of its
own. -/
theorem handles_safety_sound (opt : PostmanOpt) (mails : List (Mail F)) (state : Routes F)
    (letter : Letter F) (rest : List (Letter F)) (next : state.fromSafety = letter :: rest)
    (on : state.stopped = false) (sound : Sound opt mails state) :
    Sound opt mails (loggerTakes { state with fromSafety := rest } letter) := by
  have own := sound.fromSafety
  have flow := sound.flow
  rw [next] at own flow
  obtain ⟨first, others⟩ := List.forall_mem_cons.mp own
  obtain ⟨running, ended⟩ := takes_until_end state.handled letter (sound.running on) (.inl first)
  rw [own_mails_cons] at flow
  rcases sound.way with ⟨_, direct⟩ | ⟨rfl, none, foreign⟩
  · rw [next] at direct
    cases direct
  · rw [foreign] at flow
    refine { sound with
      fromSafety := others
      way := .inr ⟨rfl, none, foreign⟩
      flow := ?_
      running := running
      ended := ended }
    simpa [loggerTakes, foreign] using flow

section

variable [Arithmetic F] {callers : List Caller} {office : Office}

/-- Whether the postman passes on a letter or what it makes of it is the same for the
mails of safety. -/
theorem takes_sound (wired : Wired callers office) (mailDataSize : Nat) (opt : PostmanOpt)
    (mails : List (Mail F)) (state : Routes F) (letter : Letter F)
    (routable : Routable letter.mail.type)
    (moved : Sound opt mails { state with fromPostman := state.fromPostman ++ [letter] }) :
    Sound opt mails (postmanTakes mailDataSize office state letter) := by
  obtain ⟨errs, log⟩ := moved.log
  obtain ⟨text, added, taken, same, _, origin⟩ :=
    postman_takes wired mailDataSize state errs log letter routable
  have own : ownMails (state.fromPostman ++ added) = ownMails (state.fromPostman ++ [letter]) := by
    rw [own_mails_append, own_mails_append, same]
  rw [taken]
  refine { moved with log := ⟨text, rfl⟩, fromPostman := ?_, way := ?_, flow := ?_ }
  · intro other member
    rcases List.mem_append.mp member with earlier | new
    · exact moved.fromPostman other (List.mem_append_left _ earlier)
    · rcases origin other new with rfl | ⟨_, on⟩
      · exact moved.fromPostman other (List.mem_append_right _ List.mem_cons_self)
      · exact .inr on
  · simpa only [own] using moved.way
  · simpa only [own] using moved.flow

/-- The postman takes the first letter of safety, in a program that is not broken. -/
theorem postman_step (mailDataSize : Nat) (office : Office) (opt : PostmanOpt) (state : Routes F)
    (whole : state.broken = false) (letter : Letter F) (rest : List (Letter F))
    (next : state.toPostman = letter :: rest) :
    step mailDataSize office opt state (.postman none) =
      postmanTakes mailDataSize office { state with toPostman := rest } letter := by
  unfold step
  rw [if_neg (by simp [whole])]
  simp only [next]

/-- One step of any thread keeps the account. The cases are the actions, each with a
queue that is empty or not. -/
theorem step_sound (wired : Wired callers office) (mailDataSize : Nat) (opt : PostmanOpt)
    (mails : List (Mail F)) (state : Routes F) (action : Action F) (sound : Sound opt mails state) :
    Sound opt mails (step mailDataSize office opt state action) := by
  unfold step
  rw [if_neg (by simp [sound.whole])]
  cases action with
  | safety =>
    cases next : state.pending with
    | nil => simpa only [next] using sound
    | cons mail rest =>
      have sent := sends_sound mails state opt mail rest next sound
      cases opt <;> simpa only [next] using sent
  | other thread foreign => exact other_sound opt mails state thread foreign sound
  | postman thread =>
    cases thread with
    | none =>
      cases next : state.toPostman with
      | nil => simpa only [next] using sound
      | cons letter rest =>
        obtain ⟨routable, moved⟩ := takes_own_sound opt mails state letter rest next sound
        have taken := takes_sound wired mailDataSize opt mails
          { state with toPostman := rest } letter routable moved
        simpa only [next] using taken
    | some thread =>
      cases next : state.others thread with
      | nil => simpa only [next] using sound
      | cons letter rest =>
        obtain ⟨routable, moved⟩ := takes_other_sound opt mails state thread letter rest next sound
        have taken := takes_sound wired mailDataSize opt mails
          { state with others := Function.update state.others thread rest } letter routable moved
        simpa only [next] using taken
  | logger fromSafety =>
    cases on : state.stopped with
    | true => simpa only [on, if_true] using sound
    | false =>
      cases fromSafety with
      | true =>
        cases next : state.fromSafety with
        | nil => simpa [on, next] using sound
        | cons letter rest =>
          simpa [on, next] using handles_safety_sound opt mails state letter rest next on sound
      | false =>
        cases next : state.fromPostman with
        | nil => simpa [on, next] using sound
        | cons letter rest =>
          simpa [on, next] using handles_postman_sound opt mails state letter rest next on sound

/-- So does every schedule, from the start. -/
theorem run_sound (wired : Wired callers office) (mailDataSize : Nat) (opt : PostmanOpt)
    (mails : List (Mail F)) (routable : ∀ mail ∈ mails, Routable mail.type)
    (actions : List (Action F)) :
    Sound opt mails (reached mailDataSize office opt mails actions) :=
  Runs.invariant (fun _ state => Sound opt mails state) (begin_sound opt mails routable)
    (fun _ state action sound =>
      step_sound wired mailDataSize opt mails state action sound) actions

omit [Arithmetic F] in
/-- What has been handled comes first of what is to be handled, since the rest of it is
still on its way. -/
theorem Sound.order {opt : PostmanOpt} {mails : List (Mail F)} {state : Routes F}
    (sound : Sound opt mails state) :
    ownMails state.handled <+: untilEnd (storageMails mails) := by
  rw [← sound.flow]
  cases on : state.stopped with
  | true => rw [sound.ended on]
  | false =>
    rw [until_end_append _ _ (sound.running on)]
    exact List.prefix_append _ _

omit [Arithmetic F] in
/-- A stopped logger has handled everything up to the end of the crash, which is what it
stopped on. -/
theorem Sound.stopped {opt : PostmanOpt} {mails : List (Mail F)} {state : Routes F}
    (sound : Sound opt mails state) (stopped : state.stopped = true) :
    ownMails state.handled = untilEnd (storageMails mails) := by
  rw [← sound.flow, sound.ended stopped]

omit [Arithmetic F] in
/-- So has one that gets nothing more: nothing is on its way then. -/
theorem Sound.complete {opt : PostmanOpt} {mails : List (Mail F)} {state : Routes F}
    (sound : Sound opt mails state) (finished : Finished state) :
    ownMails state.handled = untilEnd (storageMails mails) := by
  rcases finished with stopped | broken | ⟨pending, toPostman, fromPostman, fromSafety⟩
  · exact sound.stopped stopped
  · rw [sound.whole] at broken
    cases broken
  · cases on : state.stopped with
    | true => exact sound.stopped on
    | false =>
      have flow := sound.flow
      simp only [pending, toPostman, fromPostman, fromSafety, own_mails_nil,
        List.nil_append] at flow
      rw [← flow, storageMails, List.filter_nil, List.append_nil,
        until_end_none _ (sound.running on)]

/-- How much is still to be done: the steps that the mails of safety have before them on
their way. -/
def remaining (state : Routes F) : Nat :=
  3 * state.pending.length + 2 * state.toPostman.length + state.fromPostman.length +
    state.fromSafety.length

/-- Some thread can go on, and brings a mail of safety nearer to the logger with its
step. -/
theorem goes_on (wired : Wired callers office) (mailDataSize : Nat) (opt : PostmanOpt)
    (mails : List (Mail F)) (state : Routes F)
    (sound : Sound opt mails state) (unfinished : ¬ Finished state) :
    ∃ action, remaining (step mailDataSize office opt state action) < remaining state := by
  obtain ⟨on, whole, waiting⟩ : state.stopped = false ∧ state.broken = false ∧
      ¬ (state.pending = [] ∧ state.toPostman = [] ∧ state.fromPostman = [] ∧
        state.fromSafety = []) := by
    simpa [Finished, not_or] using unfinished
  cases pending : state.pending with
  | cons mail rest =>
    refine ⟨.safety, ?_⟩
    cases opt <;> simp [step, whole, pending, remaining] <;> omega
  | nil =>
    cases toPostman : state.toPostman with
    | cons letter rest =>
      obtain ⟨errs, log⟩ := sound.log
      obtain ⟨routable, _⟩ := takes_own_sound opt mails state letter rest toPostman sound
      obtain ⟨text, added, taken, _, short, _⟩ := postman_takes wired mailDataSize
        { state with toPostman := rest } errs log letter routable
      refine ⟨.postman none, ?_⟩
      rw [postman_step mailDataSize office opt state whole letter rest toPostman, taken]
      simp only [remaining, toPostman, List.length_append, List.length_cons]
      omega
    | nil =>
      cases fromPostman : state.fromPostman with
      | cons letter rest =>
        exact ⟨.logger false, by simp [step, whole, on, fromPostman, loggerTakes, remaining]⟩
      | nil =>
        cases fromSafety : state.fromSafety with
        | cons letter rest =>
          exact ⟨.logger true, by simp [step, whole, on, fromSafety, loggerTakes, remaining]⟩
        | nil => exact absurd ⟨pending, toPostman, fromPostman, fromSafety⟩ waiting

/-- The end can be reached from any sound state, by steps that each leave less to be
done. -/
theorem can_finish (wired : Wired callers office) (mailDataSize : Nat) (opt : PostmanOpt)
    (mails : List (Mail F)) (state : Routes F) (sound : Sound opt mails state) :
    ∃ more, Finished (Runs.after (step mailDataSize office opt) state more) := by
  induction size : remaining state using Nat.strong_induction_on generalizing state with
  | h _ inductionHypothesis =>
    subst size
    by_cases finished : Finished state
    · exact ⟨[], finished⟩
    · obtain ⟨action, less⟩ := goes_on wired mailDataSize opt mails state sound finished
      obtain ⟨more, finished⟩ := inductionHypothesis _ less _
        (step_sound wired mailDataSize opt mails state action sound) rfl
      exact ⟨action :: more, finished⟩

/-- Where every mail of safety has a type that the postman routes, the way does not
matter. -/
theorem alike_of_routable (wired : Wired callers office) (mailDataSize : Nat)
    (mails : List (Mail F)) (routable : ∀ mail ∈ mails, Routable mail.type) :
    Alike mailDataSize office mails := by
  have sound := fun opt actions =>
    run_sound wired mailDataSize opt mails routable actions
  constructor
  · exact fun opt actions => (sound opt actions).order
  · exact fun opt actions finished => (sound opt actions).complete finished
  · intro actions direct finished finishedDirect
    rw [(sound _ actions).complete finished, (sound _ direct).complete finishedDirect]
  · intro opt actions stopped
    rw [(sound opt actions).stopped stopped]
  · intro opt actions
    obtain ⟨more, finished⟩ := can_finish wired mailDataSize opt mails _ (sound opt actions)
    exact ⟨more, by rwa [reached, Runs.after_append]⟩

/-! ## A type that is not routable -/

/-- The postman leaves a type without a row to the branch for types nobody subscribed
to, where it does not break. -/
theorem unsubscribed_of_invalid (mailDataSize : Nat) (office : Office) (errs : Text)
    (mail : Mail F) (taken : Turn F)
    (turned : turn mailDataSize office (mailLog errs) mail = some taken)
    (invalid : ¬ ValidRow mail.type) : taken.unsubscribed = true := by
  have other : mail.type ≠ mtPostman := by
    intro emergency
    exact invalid ⟨6, by decide, by rw [emergency]; exact log2_bit 6⟩
  have left (same : turn mailDataSize office (mailLog errs) mail =
      nobody mailDataSize office (mailLog errs) mail) : taken.unsubscribed = true := by
    rw [same, nobody_eq] at turned
    obtain rfl := Option.some.inj turned
    rfl
  by_cases zero : mail.type = 0
  · exact left (by simp [turn, zero, mtPostman])
  cases selects : log2 mail.type with
  | none => simp [turn, other, zero, selects] at turned
  | some row =>
    have outside : ¬ row < mtSize := fun below => invalid ⟨row, below, selects⟩
    by_cases guarded : mtMax ≤ row
    · exact left (by simp [turn, other, zero, selects, guarded])
    · simp [turn, other, zero, selects, guarded, sizeAt, outside] at turned

/-- Any other type breaks the program: its row is behind the table, or is that of the
postman. -/
theorem breaks_of_unroutable (wired : Wired callers office) (mailDataSize : Nat) (state : Routes F)
    (errs : Text) (log : state.log = mailLog errs) (letter : Letter F)
    (int : letter.mail.type < 2 ^ 31) (unroutable : ¬ Routable letter.mail.type) :
    postmanTakes mailDataSize office state letter = { state with broken := true } := by
  rw [postmanTakes, log]
  cases turned : turn mailDataSize office (mailLog errs) letter.mail with
  | none => rfl
  | some taken =>
    by_cases zero : taken.sent.any (·.1 = 0)
    · exact if_pos zero
    · have sends : ∀ delivery ∈ taken.sent, delivery.1 ≠ 0 := by
        simpa only [List.any_eq_true, decide_eq_true_eq, not_exists, not_and] using zero
      have safe : Safe mailDataSize office (mailLog errs) letter.mail :=
        ⟨taken, turned, sends,
          unsubscribed_of_invalid mailDataSize office errs letter.mail taken turned⟩
      have routable := safe_iff wired.built wired.postman mailDataSize errs letter.mail int
      exact absurd (routable.mp safe) unroutable

/-- Safety sends some mails before anything else happens, which the scheduler may well
decide. -/
theorem sends_first (mailDataSize : Nat) (office : Office) (first rest : List (Mail F))
    (state : Routes F) (whole : state.broken = false) (pending : state.pending = first ++ rest) :
    Runs.after (step mailDataSize office .postman) state (List.replicate first.length .safety) =
      { state with
        pending := rest
        toPostman := state.toPostman ++ first.map (⟨·, true⟩) } := by
  induction first generalizing state with
  | nil =>
    obtain rfl : state.pending = rest := pending
    simp
  | cons mail first inductionHypothesis =>
    have sent : step mailDataSize office .postman state .safety =
        { state with
          pending := first ++ rest
          toPostman := state.toPostman ++ [⟨mail, true⟩] } := by
      unfold step
      rw [if_neg (by simp [whole])]
      simp only [pending, List.cons_append]
    have later := inductionHypothesis
      { state with
        pending := first ++ rest
        toPostman := state.toPostman ++ [⟨mail, true⟩] } whole rfl
    rw [List.length_cons, List.replicate_succ, Runs.after_cons, sent, later]
    simp

/-- The postman takes the letters of safety before anything else happens, as long as
they are routable. -/
theorem takes_first (wired : Wired callers office) (mailDataSize : Nat)
    (first rest : List (Letter F)) (routable : ∀ letter ∈ first, Routable letter.mail.type)
    (state : Routes F) (whole : state.broken = false) (errs : Text)
    (log : state.log = mailLog errs) (next : state.toPostman = first ++ rest) :
    ∃ (text : Text) (added : List (Letter F)),
      Runs.after (step mailDataSize office .postman) state
          (List.replicate first.length (.postman none)) =
        { state with
          log := mailLog text
          toPostman := rest
          fromPostman := state.fromPostman ++ added } := by
  induction first generalizing state errs with
  | nil =>
    obtain rfl : state.toPostman = rest := next
    exact ⟨errs, [], by simp [← log]⟩
  | cons letter first inductionHypothesis =>
    obtain ⟨here, others⟩ := List.forall_mem_cons.mp routable
    obtain ⟨text, added, taken, _⟩ := postman_takes wired mailDataSize
      { state with toPostman := first ++ rest } errs log letter here
    obtain ⟨last, more, reached⟩ := inductionHypothesis others
      { state with
        log := mailLog text
        toPostman := first ++ rest
        fromPostman := state.fromPostman ++ added } whole text rfl rfl
    refine ⟨last, added ++ more, ?_⟩
    rw [List.length_cons, List.replicate_succ, Runs.after_cons,
      postman_step mailDataSize office .postman state whole letter (first ++ rest) next, taken,
      reached]
    simp

/-- A mail of safety that is not routable can break the program before the logger has
handled anything. -/
theorem can_break (wired : Wired callers office) (mailDataSize : Nat) (good rest : List (Mail F))
    (bad : Mail F) (routable : ∀ mail ∈ good, Routable mail.type)
    (int : bad.type < 2 ^ 31) (unroutable : ¬ Routable bad.type) :
    ∃ actions,
      (reached mailDataSize office .postman (good ++ bad :: rest) actions).broken = true ∧
        (reached mailDataSize office .postman (good ++ bad :: rest) actions).handled = [] := by
  have sent := sends_first mailDataSize office (good ++ [bad]) rest (begin (good ++ bad :: rest))
    rfl (by simp [begin])
  have letters : ∀ letter ∈ good.map (fun mail => (⟨mail, true⟩ : Letter F)),
      Routable letter.mail.type := by
    simpa using routable
  obtain ⟨text, added, taken⟩ := takes_first wired mailDataSize
    (good.map (⟨·, true⟩)) [⟨bad, true⟩] letters
    { begin (good ++ bad :: rest) with
      pending := rest
      toPostman := (good ++ [bad]).map (⟨·, true⟩) } rfl [] rfl (by simp)
  refine ⟨List.replicate (good ++ [bad]).length .safety ++
    List.replicate (good.map fun mail => (⟨mail, true⟩ : Letter F)).length (.postman none) ++
      [.postman none], ?_⟩
  rw [reached, Runs.after_append, Runs.after_append, sent]
  simp only [begin, List.nil_append] at taken ⊢
  rw [taken, Runs.after_cons, postman_step mailDataSize office .postman _ rfl _ [] rfl,
    breaks_of_unroutable wired mailDataSize _ text rfl ⟨bad, true⟩ int unroutable]
  exact ⟨rfl, rfl⟩

omit [Arithmetic F] in
/-- Something is handled before the first end, if there is anything at all. -/
theorem until_end_ne (mails : List (Mail F)) (some : mails ≠ []) : untilEnd mails ≠ [] := by
  cases mails with
  | nil => exact absurd rfl some
  | cons mail mails =>
    rw [untilEnd]
    split_ifs <;> simp

/-- One mail that is not routable, and the two ways differ: through the postman there is
a schedule on which the program breaks in front of it, and nothing of what follows is
handled. -/
theorem not_alike_behind (wired : Wired callers office) (mailDataSize : Nat)
    (good rest : List (Mail F)) (bad : Mail F) (routable : ∀ mail ∈ good, Routable mail.type)
    (int : bad.type < 2 ^ 31) (unroutable : ¬ Routable bad.type)
    (storage : storageMails (good ++ bad :: rest) ≠ []) :
    ¬ Alike mailDataSize office (good ++ bad :: rest) := by
  intro alike
  obtain ⟨actions, broken, nothing⟩ :=
    can_break wired mailDataSize good rest bad routable int unroutable
  have complete := alike.complete .postman actions (.inr (.inl broken))
  rw [nothing] at complete
  exact until_end_ne _ storage complete.symm

/-- The way does not matter exactly where every mail is routable. One direction is the
invariant of all schedules, the other a schedule that breaks on the first mail that is
not. -/
theorem alike_iff_routable (wired : Wired callers office) (mailDataSize : Nat)
    (mails : List (Mail F)) (ints : ∀ mail ∈ mails, mail.type < 2 ^ 31)
    (storage : storageMails mails ≠ []) :
    Alike mailDataSize office mails ↔ ∀ mail ∈ mails, Routable mail.type := by
  refine ⟨?_, alike_of_routable wired mailDataSize mails⟩
  intro alike mail member
  by_contra unroutable
  cases found : mails.find? fun mail => ¬ Routable mail.type with
  | none => exact unroutable (by simpa using List.find?_eq_none.mp found mail member)
  | some first =>
    obtain ⟨bad, good, rest, rfl, before⟩ := List.find?_eq_some_iff_append.mp found
    exact not_alike_behind wired mailDataSize good rest first (by simpa using before)
      (ints first (by simp)) (by simpa using bad) storage alike

end

end EventRecorder.LoggerRoutes
