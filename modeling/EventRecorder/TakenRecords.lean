import EventRecorder.Shutdown

/-!
# The records that the logger takes

Between the mails of safety the logger takes those of other threads, and the log mail of
the postman. Of records of a type that no other thread sends, the logger takes what safety
sends up to the end of a crash, in order, whatever the schedule.
-/

namespace EventRecorder.TakenRecords

open Arithmetic CText PostOffice Postman Routing Database Durability LoggerRoutes Shutdown
open Sqlite (Row)

section

variable {F : Type} (types : LogType → Bool)

/-- The records of some types that `logger` takes: of mails up to the end of a crash. -/
def taken (mails : List (Mail F)) : List (Log F) :=
  ((untilEnd mails).filterMap recordOf).filter fun record => types record.type

/-- A mail without a record of these types, which does not end a crash. The logger may
take it at any time. -/
structure Silent (mail : Mail F) : Prop where
  goes_on : ends mail = false
  others : ∀ record, recordOf mail = some record → types record.type = false

/-- An action by which no thread but safety sends such a record. -/
def Calm : Action F → Prop
  | .other _ foreign => Silent types foreign.mail
  | _ => True

variable {types}

/-- Behind an end nothing is taken, whatever comes. -/
theorem until_end_ended (earlier later : List (Mail F))
    (ended : ∃ mail ∈ earlier, ends mail = true) :
    untilEnd (earlier ++ later) = untilEnd earlier := by
  induction earlier with
  | nil => simp at ended
  | cons mail earlier inductionHypothesis =>
    rw [List.cons_append, untilEnd, untilEnd]
    split_ifs with last
    · rfl
    · obtain ⟨other, member, ends⟩ := ended
      rcases List.mem_cons.mp member with rfl | member
      · exact absurd ends last
      · rw [inductionHypothesis ⟨other, member, ends⟩]

/-- Of mails without an end and then others, the records of the ones come in front of
those of the others. -/
theorem taken_append (earlier later : List (Mail F))
    (running : ∀ mail ∈ earlier, ends mail = false) :
    taken types (earlier ++ later) = taken types earlier ++ taken types later := by
  rw [taken, until_end_append earlier later running, List.filterMap_append, List.filter_append]
  nth_rewrite 1 [← until_end_none earlier running]
  rfl

/-- The log mail of the postman has a record of an error, so that it is silent for other
types. -/
theorem silent_log (errs : Text) (others : types .error = false) :
    Silent types (mailLog errs : Mail F) := by
  refine ⟨rfl, fun record found => ?_⟩
  obtain rfl := Option.some.inj found
  exact others

/-- A mail for anything but the storage has no record for the logger. -/
theorem silent_other (mail : Mail F) (other : mail.type ≠ mtStorage) : Silent types mail := by
  obtain ⟨_, type, data, _⟩ := mail
  have goesOn : type ≠ mtStorage := other
  refine ⟨by simp [ends, goesOn], fun record found => ?_⟩
  cases data <;> simp [recordOf, goesOn] at found

/-- One mail after the other, up to an end. -/
theorem taken_cons (mail : Mail F) (rest : List (Mail F)) :
    taken types (mail :: rest) =
      if ends mail then taken types [mail] else taken types [mail] ++ taken types rest := by
  split_ifs with last
  · rw [taken, taken, untilEnd, untilEnd, if_pos last, if_pos last]
  · rw [← taken_append [mail] rest (by simpa using last)]
    rfl

/-- A silent mail can be left out. -/
theorem taken_silent (mail : Mail F) (rest : List (Mail F)) (silent : Silent types mail) :
    taken types (mail :: rest) = taken types rest := by
  have none : taken types [mail] = [] := by
    rw [taken, until_end_none [mail] (by simpa using silent.goes_on), List.filter_eq_nil_iff]
    intro record member
    obtain ⟨other, single, found⟩ := List.mem_filterMap.mp member
    obtain rfl := List.mem_singleton.mp single
    simp [silent.others record found]
  rw [taken_cons, silent.goes_on, none]
  rfl

/-- Of letters that have such records only in the name of safety, the same are taken from the
mails of safety for the storage alone. -/
theorem taken_own (letters : List (Letter F))
    (others : ∀ letter ∈ letters, letter.own = true ∨ Silent types letter.mail) :
    taken types (letters.map Letter.mail) = taken types (ownMails letters) := by
  induction letters with
  | nil => rfl
  | cons letter letters inductionHypothesis =>
    obtain ⟨first, others⟩ := List.forall_mem_cons.mp others
    rw [own_mails_cons, own_mails_single, List.map_cons]
    split_ifs with counts
    · rw [taken_cons, inductionHypothesis others, List.singleton_append,
        taken_cons letter.mail (ownMails letters)]
    · have silent : Silent types letter.mail := by
        rcases first with own | silent
        · exact silent_other _ fun storage => counts ⟨own, storage⟩
        · exact silent
      rw [taken_silent _ _ silent, inductionHypothesis others]
      rfl

/-- Of safety's mails only those for the storage have records. -/
theorem taken_storage (mails : List (Mail F)) :
    taken types (storageMails mails) = taken types mails := by
  have same : ownMails (mails.map (⟨·, true⟩)) = storageMails mails := by
    simp [ownMails, storageMails, List.filter_map, Function.comp_def]
  rw [← same, ← taken_own _ (by simp)]
  simp [Function.comp_def]

/-- What comes up to the end comes first. -/
theorem until_end_first (mails : List (Mail F)) : untilEnd mails <+: mails := by
  induction mails with
  | nil => exact List.prefix_rfl
  | cons mail mails inductionHypothesis =>
    rw [untilEnd]
    split_ifs
    · exact ⟨mails, rfl⟩
    · exact List.cons_prefix_cons.mpr ⟨rfl, inductionHypothesis⟩

/-- The same is taken of it, as nothing is taken behind the end. -/
theorem taken_until_end (mails : List (Mail F)) :
    taken types (untilEnd mails) = taken types mails := by
  induction mails with
  | nil => rfl
  | cons mail mails inductionHypothesis =>
    rw [untilEnd, taken_cons mail mails]
    split_ifs with last
    · rfl
    · rw [taken_cons, if_neg last, inductionHypothesis]

/-! ## Any schedule -/

variable (types) in
/-- Whatever is not of safety has no such record, in every queue and among the mails
taken. -/
structure Quiet (state : Routes F) : Prop where
  others : ∀ thread, ∀ letter ∈ state.others thread, Silent types letter.mail
  fromPostman : ∀ letter ∈ state.fromPostman, letter.own = true ∨ Silent types letter.mail
  handled : ∀ letter ∈ state.handled, letter.own = true ∨ Silent types letter.mail

/-- The logger takes a letter, and what it has taken stays quiet. -/
theorem Quiet.takes {state : Routes F} (quiet : Quiet types state) (letter : Letter F)
    (known : letter.own = true ∨ Silent types letter.mail) :
    Quiet types (loggerTakes state letter) := by
  refine { quiet with handled := ?_ }
  intro other member
  rcases List.mem_append.mp member with earlier | last
  · exact quiet.handled other earlier
  · rw [List.mem_singleton.mp last]
    exact known

/-- A queue changes, and stays quiet if its new letters are. -/
theorem Quiet.update {state : Routes F} (quiet : Quiet types state) (thread : Nat)
    (letters : List (Letter F)) (silent : ∀ letter ∈ letters, Silent types letter.mail) :
    Quiet types { state with others := Function.update state.others thread letters } := by
  refine { quiet with others := ?_ }
  intro sender letter member
  by_cases same : sender = thread
  · subst same
    simp only [Function.update_self] at member
    exact silent letter member
  · simp only [Function.update_of_ne same] at member
    exact quiet.others sender letter member

variable [Arithmetic F] {callers : List Caller} {office : Office}

/-- The postman takes a letter: it passes it on, or its own log mail in its place. -/
theorem Quiet.postman {state : Routes F} (quiet : Quiet types state) (wired : Wired callers office)
    (mailDataSize : Nat) (errs : Text) (log : state.log = mailLog errs) (letter : Letter F)
    (routable : Routable letter.mail.type) (noError : types .error = false)
    (known : letter.own = true ∨ Silent types letter.mail) :
    Quiet types (postmanTakes mailDataSize office state letter) := by
  have passes (text : Text) (unsubscribed : Bool) (boxes : List Int) (mail : Mail F)
      (passed : (letter.own && !unsubscribed) = true ∨ Silent types mail)
      (turned : turn mailDataSize office (mailLog errs) letter.mail =
        some ⟨mailLog text, boxes.map (·, mail), unsubscribed⟩) :
      Quiet types (postmanTakes mailDataSize office state letter) := by
    rw [postmanTakes, log, turned]
    dsimp only
    split_ifs
    · exact { quiet with }
    · refine { quiet with fromPostman := ?_ }
      intro other member
      rcases List.mem_append.mp member with earlier | new
      · exact quiet.fromPostman other earlier
      · obtain ⟨copy, sent, rfl⟩ := List.mem_map.mp new
        obtain ⟨delivery, among, rfl⟩ := List.mem_map.mp sent
        obtain ⟨_, _, rfl⟩ := List.mem_map.mp (List.mem_of_mem_filter among)
        exact passed
  rcases turn_boxes wired.built.exact wired.logger mailDataSize errs letter.mail routable with
    ⟨boxes, _, _, turned⟩ | ⟨_, text, turned⟩
  · exact passes _ false boxes letter.mail (by simpa using known) turned
  · exact passes text true _ _ (.inr (silent_log text noError)) turned

/-- One step of any thread keeps the queues quiet, if the thread is calm. -/
theorem step_quiet (wired : Wired callers office) (mailDataSize : Nat) (opt : PostmanOpt)
    (mails : List (Mail F)) (state : Routes F) (action : Action F) (sound : Sound opt mails state)
    (quiet : Quiet types state) (noError : types .error = false) (calm : Calm types action) :
    Quiet types (step mailDataSize office opt state action) := by
  unfold step
  rw [if_neg (by simp [sound.whole])]
  obtain ⟨errs, log⟩ := sound.log
  cases action with
  | safety =>
    cases next : state.pending with
    | nil => simpa only [next] using quiet
    | cons mail rest => cases opt <;> simpa only [next] using { quiet with }
  | other thread foreign =>
    refine quiet.update thread _ fun letter member => ?_
    rcases List.mem_append.mp member with earlier | last
    · exact quiet.others thread letter earlier
    · rw [List.mem_singleton.mp last]
      exact calm
  | postman thread =>
    cases thread with
    | none =>
      cases next : state.toPostman with
      | nil => simpa only [next] using quiet
      | cons letter rest =>
        obtain ⟨own, routable⟩ := sound.toPostman letter (by simp [next])
        have moved : Quiet types { state with toPostman := rest } := { quiet with }
        simpa only [next] using
          moved.postman wired mailDataSize errs log letter routable noError (.inl own)
    | some thread =>
      cases next : state.others thread with
      | nil => simpa only [next] using quiet
      | cons letter rest =>
        obtain ⟨_, routable, _⟩ := sound.others thread letter (by simp [next])
        obtain ⟨silent, later⟩ := List.forall_mem_cons.mp (next ▸ quiet.others thread)
        simpa only [next] using (quiet.update thread rest later).postman wired mailDataSize errs
          log letter routable noError (.inr silent)
  | logger fromSafety =>
    cases on : state.stopped with
    | true => simpa only [on, if_true] using quiet
    | false =>
      cases fromSafety with
      | true =>
        cases next : state.fromSafety with
        | nil => simpa [on, next] using quiet
        | cons letter rest =>
          have own := sound.fromSafety letter (by simp [next])
          have moved : Quiet types { state with fromSafety := rest } := { quiet with }
          simpa [on, next] using moved.takes letter (.inl own)
      | false =>
        cases next : state.fromPostman with
        | nil => simpa [on, next] using quiet
        | cons letter rest =>
          obtain ⟨first, others⟩ := List.forall_mem_cons.mp (next ▸ quiet.fromPostman)
          have moved : Quiet types { state with fromPostman := rest } :=
            { quiet with fromPostman := others }
          simpa [on, next] using moved.takes letter first

/-- A logger that stopped has seen a crash of safety end, since no other mail ends one. -/
theorem stopped_ended (wired : Wired callers office) (mailDataSize : Nat) (opt : PostmanOpt)
    (mails : List (Mail F)) (routable : ∀ mail ∈ mails, Routable mail.type)
    (actions : List (Action F))
    (stopped : (reached mailDataSize office opt mails actions).stopped = true) :
    ∃ mail ∈ mails, ends mail = true := by
  have sound := run_sound wired mailDataSize opt mails routable actions
  have last := sound.ended stopped [mailLog []]
  by_contra none
  have handled := sound.stopped stopped
  have running : ∀ mail ∈ ownMails (reached mailDataSize office opt mails actions).handled,
      ends mail = false := by
    intro mail member
    rw [handled] at member
    by_contra ended
    have among := List.mem_of_mem_filter ((until_end_first _).subset member)
    exact none ⟨mail, among, by simpa using ended⟩
  rw [until_end_append _ _ running] at last
  simp [untilEnd] at last

/-- Of records that no other thread sends, a logger that stopped has taken those of safety. -/
theorem taken_handled (wired : Wired callers office) (mailDataSize : Nat) (opt : PostmanOpt)
    (mails : List (Mail F)) (routable : ∀ mail ∈ mails, Routable mail.type)
    (noError : types .error = false) (actions : List (Action F))
    (calm : ∀ action ∈ actions, Calm types action)
    (stopped : (reached mailDataSize office opt mails actions).stopped = true) :
    taken types ((reached mailDataSize office opt mails actions).handled.map Letter.mail) =
      taken types mails := by
  have quiet : Quiet types (reached mailDataSize office opt mails actions) := by
    clear stopped
    induction actions using List.reverseRecOn with
    | nil => constructor <;> simp [reached, begin]
    | append_singleton actions action inductionHypothesis =>
      have sound := run_sound wired mailDataSize opt mails routable actions
      rw [reached, Runs.after_append]
      exact step_quiet wired mailDataSize opt mails _ action sound
        (inductionHypothesis fun other member => calm other (List.mem_append_left _ member))
        noError (calm action (by simp))
  rw [taken_own _ quiet.handled,
    (run_sound wired mailDataSize opt mails routable actions).stopped stopped,
    taken_until_end, taken_storage]

end

/-! ## A recording -/

section

variable {W F : Type} [Arithmetic F] [LogHeader]

/-- A recording, in which the mails of safety are logged up to the end of a crash: any
schedule in which no other thread sends records of some types, with a database that takes
in every record and whose `END` does not fail inside a transaction. Which other calls fail,
and whether they undo anything, is open. -/
structure Recording {env : Environment W F} (sqlite : Sqlite env) (types : LogType → Bool)
    (mails : List (Mail F)) where
  callers : List Caller
  office : Office
  wired : Wired callers office
  mailDataSize : Nat
  opt : PostmanOpt
  routable : ∀ mail ∈ mails, Routable mail.type
  actions : List (Action F)
  calm : ∀ action ∈ actions, Calm types action
  stopped : (reached mailDataSize office opt mails actions).stopped = true
  transactionCount : Nat
  fuel : Nat
  world : W
  empty : sqlite.ledger world = .empty
  calls : List (Log F × Nat)
  last : DbState W
  returned : logger env transactionCount fuel
    ((reached mailDataSize office opt mails actions).handled.map Letter.mail)
    (DbState.initial world) = some (calls, last)
  inserted : ∀ call ∈ calls, call.2 = 0
  endsSucceed : EndsSucceed sqlite

variable {env : Environment W F} {sqlite : Sqlite env} {types : LogType → Bool}
  {mails : List (Mail F)}

/-- The mails that the logger takes, of whatever thread. -/
def Recording.handled (recording : Recording sqlite types mails) : List (Mail F) :=
  (reached recording.mailDataSize recording.office recording.opt mails
    recording.actions).handled.map Letter.mail

/-- The rows that a recording leaves in the database when the recorder has exited, in the
order of their insertion. -/
def Recording.rows (recording : Recording sqlite types mails) : List (Row F) :=
  (sqlite.ledger (sqliteLocalDbExit sqlite recording.last.world)).committed

/-- The logger stops on the end of a crash alone, so safety has sent one. -/
theorem Recording.ended (recording : Recording sqlite types mails) :
    ∃ mail ∈ mails, ends mail = true :=
  stopped_ended recording.wired recording.mailDataSize recording.opt mails recording.routable
    recording.actions recording.stopped

/-- Of the types that only safety sends, a recording takes what safety sends. -/
theorem Recording.taken (recording : Recording sqlite types mails)
    (noError : types .error = false) :
    taken types recording.handled = taken types mails :=
  taken_handled recording.wired recording.mailDataSize recording.opt mails recording.routable
    noError recording.actions recording.calm recording.stopped

/-- What a recording takes is logged, and each record has left its row: as every call has
returned 0 and the exit has committed the last batch, no row was lost. -/
theorem Recording.kept (recording : Recording sqlite types mails) :
    List.Forall₂ (fun record call => Prepared env record call.1)
        ((untilEnd recording.handled).filterMap recordOf) recording.calls ∧
      ∃ groups, List.Forall₂ (RecordsRow env.sha3) recording.calls groups ∧
        recording.rows = groups.flatten := by
  have room := initial_room recording.world
  have fresh : sqlite.ledger (DbState.initial recording.world).world = .empty := recording.empty
  obtain ⟨logged, groups, each, entries⟩ := logger_rows sqlite recording.transactionCount
    recording.fuel recording.handled _ recording.last recording.calls room recording.returned
  have none := logger_loses_none sqlite recording.transactionCount recording.fuel
    recording.handled _ recording.last recording.calls recording.endsSucceed room
    (fun _ => by rw [fresh]; rfl) recording.inserted recording.returned
  obtain ⟨_, _, undone, committed⟩ :=
    exit_settles sqlite recording.last.world (recording.endsSucceed _)
  rw [fresh] at entries none
  exact ⟨logged, groups, each, (committed (undone.trans none)).trans entries⟩

end

end EventRecorder.TakenRecords
