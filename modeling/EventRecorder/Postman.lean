import EventRecorder.Mail
import EventRecorder.Subscriptions
import Mathlib.Data.Nat.Log

/-!
# The postman

`postman_deliver` takes mails from its own queue and puts each into the queues of
the processes that subscribed to its type. One log mail serves the whole run: for
a type without subscribers its text is overwritten and it goes to the storage
processes instead.

The row of a type is the truncated logarithm of its number. A negative type has no
logarithm, and a row behind the table cannot be read; both end the run. What the
postman sends is a list of box positions and mails, in order. The mail it first
sends to itself is one of those it takes from its queue.
-/

namespace EventRecorder.Postman

open Arithmetic CText PostOffice Subscriptions

universe u

/-- `MT_POSTMAN`, the type with which the postman itself is addressed. Its mails are not
passed on. -/
def mtPostman : Int := 2 ^ 6

/-- `MT_MAX`, the largest mail type. `postman_deliver` compares a row with it, although
rows are logarithms of types. -/
def mtMax : Nat := 2 ^ 9

/-- `(int) log2 (type)`, where it is defined: the conversion of the result for zero or a
negative type to `int` is not. -/
def log2 (type : Int) : Option Nat := if 0 < type then some (Nat.log 2 type.toNat) else none

/-- `s_size[row]`, for a row of the table. Behind the last row there is no array to read
from, which ends the run. -/
def sizeAt (office : Office) (row : Nat) : Option Nat :=
  if row < mtSize then some (office.sSize row) else none

variable {F : Type u}

/-- What reaches the queues in one turn or one run: the position of a box and a mail for
each copy made, in the order of the copies. -/
abbrev Sent (F : Type u) := List (Int × Mail F)

/-- `postman_send`: a copy of the mail for each of the subscribers in the row of its
type, in the order in which they subscribed. -/
def postmanSend (office : Office) (type : Nat) (mail : Mail F) : Option (Sent F) :=
  (sizeAt office type).map fun size =>
    (List.range size).map fun i => (office.subs (office.position type i), mail)

/-- A row of the table is sent to exactly the boxes in it, in their order, so that later
proofs speak of rows and not of positions in them. -/
theorem send_row (office : Office) (row : Nat) (mail : Mail F) (below : row < mtSize) :
    postmanSend office row mail = some ((office.row row).map fun box => (box, mail)) := by
  simp [postmanSend, sizeAt, below, Office.row]

/-- `LOG_SUB_STRING`, the text in front of a mail that is logged because nobody
subscribed to it. -/
def logSubString : Text := "No process subscribed for mail: ".toList

/-- `mail_log`, the log mail that one run keeps on the stack, with a text in `errs`. Its
other members are set once, before the loop. -/
def mailLog (errs : Text) : Mail F := storageMail ⟨.error, .error (.other 1) errs, []⟩

/-- Write `data.data.log.data.error.errs`. The mail is always `mailLog` with some text;
any other value has no such member and stays as it is. -/
def setErrs (log : Mail F) (errs : Text) : Mail F :=
  match log.data with
  | .log ⟨type, .error errc _, dbTime⟩ => { log with data := .log ⟨type, .error errc errs, dbTime⟩ }
  | _ => log

/-- The log mail is overwritten with the same members every time, so that only the last
text written to it shows. -/
@[simp] theorem set_errs_log (errs text : Text) :
    setErrs (mailLog errs : Mail F) text = mailLog text := rfl

variable [Arithmetic F]

/-- `%5d`: the decimal digits with a sign, filled up with blanks in front to five
characters and never cut. -/
def fiveDigits (value : Int) : Text := (decimal value).leftpad 5 ' '

/-- `stringify_mail` into a buffer that holds a text. A log record is the one kind of
mail it writes nothing for, and it leaves the buffer as it was. -/
def stringifyMail (mailDataSize : Nat) (mail : Mail F) (buffer : Text) : Text :=
  let head := "priority: ".toList ++ fiveDigits mail.priority ++ ", type: ".toList ++
    fiveDigits mail.type
  match mail.data with
  | .msg text => snprintf mailDataSize
      (head ++ ", info: ".toList ++ mail.info.take 20 ++ ", data: ".toList ++
        text.take mailDataSize)
  | .float f => snprintf mailDataSize (head ++ ", data: ".toList ++ render f)
  | .int i => snprintf mailDataSize (head ++ ", data: ".toList ++ decimal i)
  | .log _ => buffer

/-- A turn of the loop: the log mail after it, what it sends, and whether it took
the branch for types nobody subscribed to. -/
structure Turn (F : Type u) where
  log : Mail F
  sent : Sent F
  unsubscribed : Bool

/-- The branch for types nobody subscribed to: the mail is put into words, and the log
mail with these goes to the processes that store. -/
def nobody (mailDataSize : Nat) (office : Office) (log mail : Mail F) : Option (Turn F) :=
  let log := setErrs log (logSubString ++ stringifyMail mailDataSize mail [])
  (log2 mtStorage).bind fun row => (postmanSend office row log).map fun sent => ⟨log, sent, true⟩

/-- One turn of the loop in `postman_deliver`. The comparisons come in the order of the
source: the postman's own type, no type, and then the row against `MT_MAX` before the
size of the row is read. -/
def turn (mailDataSize : Nat) (office : Office) (log mail : Mail F) : Option (Turn F) :=
  if mail.type = mtPostman then some ⟨log, [], false⟩
  else if mail.type = 0 then nobody mailDataSize office log mail
  else (log2 mail.type).bind fun type2 =>
    if mtMax ≤ type2 then nobody mailDataSize office log mail
    else (sizeAt office type2).bind fun size =>
      if size = 0 then nobody mailDataSize office log mail
      else (postmanSend office type2 mail).map fun sent => ⟨log, sent, false⟩

/-- `postman_deliver` on the mails it takes from its queue, from a state of the log
mail. -/
def deliver (mailDataSize : Nat) (office : Office) : Mail F → List (Mail F) → Option (Sent F)
  | _, [] => some []
  | log, mail :: rest => do
    let taken ← turn mailDataSize office log mail
    let others ← deliver mailDataSize office taken.log rest
    return taken.sent ++ others

/-- `postman_deliver` over the mails that come out of its queue, from the log mail as it
is before the first of them. -/
def postmanDeliver (mailDataSize : Nat) (office : Office) (mails : List (Mail F)) :
    Option (Sent F) := deliver mailDataSize office (mailLog []) mails

/-! ## Rows -/

/-- The types of the source are single bits, and the logarithm of one is the position of
the bit, which is the row. -/
@[simp] theorem log2_bit (row : Nat) : log2 (2 ^ row) = some row := by
  have positive : (0 : Int) < 2 ^ row := by positivity
  have number : ((2 : Int) ^ row).toNat = 2 ^ row := by
    rw [Int.toNat_pow_of_nonneg (by decide)]
    rfl
  rw [log2, if_pos positive, number, Nat.log_pow (by decide)]

/-- The row of the processes that store, which mails without a subscriber are sent to as
well. -/
@[simp] theorem log2_storage : log2 mtStorage = some 4 := log2_bit 4

/-- The log mail is sent in place of one nobody subscribed to, to every box in the row
of the storage, and is the log mail of the next turn. -/
theorem nobody_eq (mailDataSize : Nat) (office : Office) (errs : Text) (mail : Mail F) :
    nobody mailDataSize office (mailLog errs) mail =
      some ⟨mailLog (logSubString ++ stringifyMail mailDataSize mail []),
        (office.row 4).map fun box =>
          (box, mailLog (logSubString ++ stringifyMail mailDataSize mail [])), true⟩ := by
  simp [nobody, send_row office 4 _ (by decide)]

/-- A mail without a type is for nobody, and is told apart before the logarithm of its
type would be taken. -/
theorem turn_zero (mailDataSize : Nat) (office : Office) (log mail : Mail F)
    (zero : mail.type = 0) :
    turn mailDataSize office log mail = nobody mailDataSize office log mail := by
  simp [turn, zero, mtPostman]

/-- A mail whose type selects a row of the table goes to the boxes in that row, or is
for nobody if the row is empty. Every single-bit type other than the postman's is such a
one. -/
theorem turn_row (mailDataSize : Nat) (office : Office) (log mail : Mail F) (row : Nat)
    (selects : log2 mail.type = some row) (below : row < mtSize)
    (other : mail.type ≠ mtPostman) :
    turn mailDataSize office log mail =
      if office.sSize row = 0 then nobody mailDataSize office log mail
      else some ⟨log, (office.row row).map fun box => (box, mail), false⟩ := by
  have some : mail.type ≠ 0 := by
    intro zero
    simp [zero, log2] at selects
  have small : ¬ mtMax ≤ row := by
    simp only [mtMax, mtSize] at below ⊢
    omega
  simp [turn, other, some, selects, small, sizeAt, below, send_row office row mail below]

end EventRecorder.Postman
