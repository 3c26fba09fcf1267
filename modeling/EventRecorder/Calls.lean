import EventRecorder.Resolutions
import EventRecorder.StartUp

/-!
# Calls for an ambulance

The mails of `ui` for the cellular process go through the postman among those of all
other threads. The cellular process records a call for each that it receives: one for each
request for help that nobody averted, with the reason.
-/

namespace EventRecorder.Calls

open Arithmetic CText SharedMemory SharedIndices Postman Routing LoggerRoutes StartUp Resolutions
open PostOffice (mtSize)

variable {F : Type}

/-- `get_string`, the text for the reason of a call; a number it does not know gets a
text with the number in it. -/
def getString (mailDataSize : Nat) (type : Int) : Text :=
  snprintf mailDataSize
    (if type = 1 then "patient answered".toList
      else if type = 2 then "patient did not respond".toList
      else "Error no such ambulance message type ".toList ++ decimal type ++ ['\n'])

/-- `log_mail` of the cellular process with its text, as the mail that is sent to the
storage. -/
def cellularLog (text : Text) : Mail F := storageMail ⟨.ui, .log text, []⟩

/-- A turn of the loop in `cellular`: the mail it sends. `shown` is the string that data
other than a number shows. -/
def cellularTurn (mailDataSize : Nat) (shown : MailData F → Text) (mail : Mail F) :
    Option (Mail F) :=
  if mail.type = mtCellular then
    match mail.data with
    | .int i => some (cellularLog
        ("Cellular: CALLING AMBULANCE with info: ".toList ++ getString mailDataSize i))
    | data => some (cellularLog
        ("Cellular: incorrect data: ".toList ++ (shown data).take 100 ++ [' ']))
  else none

/-- `cellular`: the mails it sends for those it receives, at most one for each. -/
def cellular (mailDataSize : Nat) (shown : MailData F → Text) (mails : List (Mail F)) :
    List (Mail F) := mails.filterMap (cellularTurn mailDataSize shown)

/-- The record of the call that an outcome leads to: with the reason that the patient
answered or did not, and none for a request that was averted. -/
def callRecord (mailDataSize : Nat) (outcome : Outcome) : Option (Mail F) :=
  match outcome.2 with
  | some true => some (cellularLog
      ("Cellular: CALLING AMBULANCE with info: ".toList ++ getString mailDataSize 1))
  | some false => none
  | none => some (cellularLog
      ("Cellular: CALLING AMBULANCE with info: ".toList ++ getString mailDataSize 2))

/-- A mail for the cellular process, which its type alone decides. -/
def isCall (mail : Mail F) : Bool := mail.type = mtCellular

/-- The mails of an outcome lead to its record: those for the storage are not calls, and
the call among them gives the record. -/
theorem cellular_outcome (mailDataSize : Nat) (shown : MailData F → Text) (outcome : Outcome) :
    cellular mailDataSize shown ((outcomeMails outcome).filter isCall) =
      (callRecord mailDataSize outcome).toList := by
  obtain ⟨mail, _ | _ | _⟩ := outcome
  all_goals rfl

/-- Those of all outcomes lead to their records, in order, since the cellular process
keeps nothing from one mail to the next. -/
theorem cellular_outcomes (mailDataSize : Nat) (shown : MailData F → Text)
    (outcomes : List Outcome) :
    cellular mailDataSize shown ((outcomes.flatMap outcomeMails).filter isCall) =
      outcomes.filterMap (callRecord mailDataSize) := by
  induction outcomes with
  | nil => rfl
  | cons outcome rest inductionHypothesis =>
    have first := cellular_outcome (F := F) mailDataSize shown outcome
    rw [cellular] at first inductionHypothesis ⊢
    rw [List.flatMap_cons, List.filter_append, List.filterMap_append, first, inductionHypothesis]
    cases record : callRecord (F := F) mailDataSize outcome <;> simp [record]

/-- The number of the box that the cellular process is started with, by the option. -/
def cellularBox : PostmanOpt → Int
  | .postman => 3
  | .direct => 4

/-- Only the cellular process subscribes to calls, and to nothing else, in the table of
either option. -/
theorem subscribers_cellular (opt : PostmanOpt) (row : Nat) (below : row < mtSize) :
    cellularBox opt ∈ subscribers (participants opt true) (2 ^ row) ↔ row = 5 := by
  have all : ∀ row < mtSize,
      (cellularBox opt ∈ subscribers (participants opt true) (2 ^ row) ↔ row = 5) := by
    cases opt <;> decide +kernel
  exact all row below

/-- Of the types with a row, that of a call is in the sixth, whose position is counted
from zero. -/
theorem call_row (row : Nat) (below : row < mtSize) : (2 : Int) ^ row = mtCellular ↔ row = 5 := by
  simp only [mtSize] at below
  interval_cases row <;> decide

section

variable [Arithmetic F]

/-- Of the mails with a type, the cellular process is to receive the calls and no
others. -/
theorem expected_cellular (opt : PostmanOpt) (mailDataSize : Nat) (mail : Mail F) (row : Nat)
    (below : row < mtSize) (single : mail.type = 2 ^ row) :
    expected mailDataSize (participants opt true) (cellularBox opt) mail =
      if isCall mail then [mail] else [] := by
  have own := subscribers_cellular opt row below
  have storage : cellularBox opt ∉ subscribers (participants opt true) mtStorage := fun member =>
    absurd ((subscribers_cellular opt 4 (by decide)).mp member) (by decide)
  have call : isCall mail = true ↔ row = 5 := by simp [isCall, single, call_row row below]
  rw [← single] at own
  unfold expected
  by_cases emergency : mail.type = mtPostman
  · have other : ¬ isCall mail = true := by
      simp only [isCall, emergency]
      decide
    rw [if_pos emergency, if_neg other]
  · simp only [if_neg emergency, storage, and_false, if_false, own, call]

/-- Of some mails it is to receive the calls among them, in order, by the law for each
of them. -/
theorem expected_calls (opt : PostmanOpt) (mailDataSize : Nat) (mails : List (Mail F))
    (single : ∀ mail ∈ mails, ∃ row < mtSize, mail.type = 2 ^ row) :
    mails.flatMap (expected mailDataSize (participants opt true) (cellularBox opt)) =
      mails.filter isCall := by
  induction mails with
  | nil => rfl
  | cons mail rest inductionHypothesis =>
    obtain ⟨⟨row, below, type⟩, others⟩ := List.forall_mem_cons.mp single
    rw [List.flatMap_cons, inductionHypothesis others,
      expected_cellular opt mailDataSize mail row below type, List.filter_cons]
    split_ifs <;> rfl

/-- From the user to the record. Where the memory is accessed in range and the postman
takes the calls of `ui` among any mails of other threads, the cellular process records a
call for each request that is settled and was not averted, in order, with the reason.

Proof: the requests settle in the order in which they were made, which gives the mails
of `ui`; exact routing brings the calls among them to the box of the cellular process;
and the mails of each outcome lead to its record. -/
theorem calls_recorded (opt : PostmanOpt) (office : PostOffice.Office)
    (built : Built (participants opt true) office) (mailDataSize : Nat)
    (shown : MailData F → Text) (ops : List Op)
    (allowed : Runs.EveryStep SharedMemory.next .initial ops fun _ sys op => Allowed sys op)
    (mails : List (Mail F)) (single : ∀ mail ∈ mails, ∃ row < mtSize, mail.type = 2 ^ row)
    (calls : mails.filter isCall = (uiMails ops).filter isCall) :
    ∃ sent, postmanDeliver mailDataSize office mails = some sent ∧
      cellular mailDataSize shown (received (cellularBox opt) sent) =
        (outcomes (events .initial ops)).filterMap (callRecord mailDataSize) := by
  obtain ⟨sent, delivered, boxes⟩ := deliver_exact built.exact mailDataSize [] mails single
  refine ⟨sent, delivered, ?_⟩
  obtain ⟨_, _, emits⟩ := run_refines .initial .initial ops initial_refines allowed
  rw [boxes, expected_calls opt mailDataSize mails single, calls, uiMails, emits,
    cellular_outcomes]
  rfl

end

/-- The office after a round robin start, in which every process gets fourteen turns to
subscribe and to wait for the others. -/
def startOffice : PostOffice.Office :=
  (Runs.after (PostOffice.subscribe (participants .postman true))
    (unsubscribed .postman fun _ => 0)
    ((List.replicate 13 (List.range 6)).flatten ++ List.range 6)).office

/-- All processes have returned from their subscription then, so that the table is
built. -/
theorem start_built : Built (participants .postman true) startOffice :=
  ⟨_, _, _, 0, participants_admissible .postman true, by decide +kernel, rfl⟩

/-- The calls of the two requests, with a mail of another thread between them that the
cellular process does not get. -/
theorem two_calls_recorded :
    ∃ sent, postmanDeliver 256 startOffice
        [(⟨1, mtCellular, .int 1, "ASSIST".toList⟩ : Mail ℚ), ⟨1, mtSafety, .float 7, []⟩,
          ⟨1, mtCellular, .int 2, "ASSIST".toList⟩] = some sent ∧
      cellular 256 (fun _ => []) (received 3 sent) =
        [cellularLog "Cellular: CALLING AMBULANCE with info: patient answered".toList,
          cellularLog "Cellular: CALLING AMBULANCE with info: patient did not respond".toList] := by
  obtain ⟨sent, delivered, records⟩ := calls_recorded .postman startOffice start_built 256
    (fun _ => []) twoRequests (by decide +kernel)
    [(⟨1, mtCellular, .int 1, "ASSIST".toList⟩ : Mail ℚ), ⟨1, mtSafety, .float 7, []⟩,
      ⟨1, mtCellular, .int 2, "ASSIST".toList⟩]
    (by simp only [List.forall_mem_cons]; exact ⟨⟨5, by decide, rfl⟩, ⟨8, by decide, rfl⟩,
      ⟨5, by decide, rfl⟩, by simp⟩)
    (by decide +kernel)
  exact ⟨sent, delivered, records.trans (by decide +kernel)⟩

end EventRecorder.Calls
