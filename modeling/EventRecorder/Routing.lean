import EventRecorder.Postman
import Mathlib.Tactic.IntervalCases

/-!
# What the postman delivers

The table is one that `post_office_subscribe` leaves once a call has returned. For
the single-bit types every box receives, in order, the mails it subscribed to, and
the storage boxes a log mail for each type nobody subscribed to.

For other types the row is that of the highest bit. The postman's own row holds box
0, which has no queue to receive from the postman, and types from `MT_MAX` on select
no row: the guard compares the row with `MT_MAX` where the table has `MT_SIZE` rows.
-/

namespace EventRecorder.Routing

open Arithmetic CText PostOffice Subscriptions Postman

universe u
variable {F : Type u}

/-- The offices that complete subscriptions leave: the barrier was initialised for these
callers, and some call has returned. -/
def Built (callers : List Caller) (office : Office) : Prop :=
  ∃ (boxes : Nat) (memory : Nat → Int) (schedule : List Nat) (k : Nat),
    Admissible (boxes + 1) callers ∧
      0 < (Runs.after (subscribe callers) (started boxes memory callers.length)
        schedule).returned k ∧
      office = (Runs.after (subscribe callers) (started boxes memory callers.length)
        schedule).office

/-- Complete subscriptions are exact, however the callers were interleaved. -/
theorem Built.exact {callers : List Caller} {office : Office} (built : Built callers office) :
    Exact callers office := by
  obtain ⟨boxes, memory, schedule, k, admissible, returned, rfl⟩ := built
  have subscribed := run_subscribed admissible
    (started_subscribed boxes memory callers callers.length (Nat.le_refl _)) schedule
  exact subscribed.exact admissible (subscribed.opened_of_returned returned)

/-- The boxes of the processes that subscribed to a type, in the order of the callers. -/
def subscribers (callers : List Caller) (type : Int) : List Int :=
  (callers.filter fun caller => caller.mask &&& BitVec.ofInt 32 type != 0).map Caller.id

/-- The mails that reach a box, in order, out of all that the postman sends. -/
def received (box : Int) (sent : Sent F) : List (Mail F) :=
  (sent.filter fun delivery => delivery.1 = box).map Prod.snd

/-- What a box is to receive for a mail: the mail if it subscribed, and a log mail in
its place for the storage if nobody did. Mails for the postman itself go nowhere. -/
def expected [Arithmetic F] (mailDataSize : Nat) (callers : List Caller) (box : Int)
    (mail : Mail F) : List (Mail F) :=
  if mail.type = mtPostman then []
  else if box ∈ subscribers callers mail.type then [mail]
  else if subscribers callers mail.type = [] ∧ box ∈ subscribers callers mtStorage then
    [mailLog (logSubString ++ stringifyMail mailDataSize mail [])]
  else []

/-! ## Rows and subscribers -/

/-- A caller subscribed to a single-bit type if it has the bit, which is how the source
tests it. -/
theorem masked_iff (mask : BitVec 32) (row : Nat) (below : row < mtSize) :
    (mask &&& BitVec.ofInt 32 (2 ^ row) != 0) = mask.getLsbD row := by
  have bit : BitVec.ofInt 32 (2 ^ row) = BitVec.twoPow 32 row := by
    simp only [mtSize] at below
    interval_cases row <;> rfl
  have small : row < 32 := by
    simp only [mtSize] at below
    omega
  have some : BitVec.twoPow 32 row ≠ 0 := by
    intro none
    have value := congrArg BitVec.toNat none
    simp [BitVec.toNat_twoPow_of_lt small] at value
  rw [bit, BitVec.and_twoPow]
  by_cases set : mask.getLsbD row = true
  · simpa [set] using some
  · simp [set]

/-- The row of a single-bit type holds its subscribers, in the order in which they came. -/
theorem row_perm {callers : List Caller} {office : Office} (exact : Exact callers office)
    (row : Nat) (below : row < mtSize) :
    (office.row row).Perm (subscribers callers (2 ^ row)) := by
  have same : subscribers callers (2 ^ row) =
      (callers.filter fun caller => caller.wants row).map Caller.id := by
    simp only [subscribers, masked_iff _ row below, Caller.wants]
  rw [same]
  exact exact.rows row below

/-- A row is empty when nobody subscribed to its type, which is what the postman tests. -/
theorem size_eq_zero_iff {callers : List Caller} {office : Office}
    (exact : Exact callers office) (row : Nat) (below : row < mtSize) :
    office.sSize row = 0 ↔ subscribers callers (2 ^ row) = [] := by
  have length := (row_perm exact row below).length_eq
  rw [Office.row, List.length_map, List.length_range] at length
  rw [length, List.length_eq_zero_iff]

/-- A mail sent to boxes without a duplicate reaches each of them once, and no other
box. -/
theorem received_boxes (boxes : List Int) (box : Int) (mail : Mail F) (once : boxes.Nodup) :
    received box (boxes.map fun box => (box, mail)) = if box ∈ boxes then [mail] else [] := by
  induction boxes with
  | nil => rfl
  | cons first rest inductionHypothesis =>
    obtain ⟨new, others⟩ := List.nodup_cons.mp once
    have tail := inductionHypothesis others
    rw [received] at tail
    by_cases own : first = box
    · subst own
      rw [if_neg new] at tail
      simp [received, tail]
    · simp [received, own, tail, Ne.symm own]

/-- Nothing is received of nothing. -/
@[simp] theorem received_nil (box : Int) : received box ([] : Sent F) = [] := rfl

/-- What a box receives of two lists of deliveries, it receives in their order. -/
@[simp] theorem received_append (box : Int) (before rest : Sent F) :
    received box (before ++ rest) = received box before ++ received box rest := by
  simp [received]

/-- What a box receives in place of a mail nobody subscribed to: the log mail, if it is
one of the storage. -/
theorem received_nobody {callers : List Caller} {office : Office} (exact : Exact callers office)
    (box : Int) (log : Mail F) :
    received box ((office.row 4).map fun box => (box, log)) =
      if box ∈ subscribers callers mtStorage then [log] else [] := by
  have below : 4 < mtSize := by decide
  have same : box ∈ office.row 4 ↔ box ∈ subscribers callers mtStorage :=
    (row_perm exact 4 below).mem_iff
  rw [received_boxes _ box log (exact.once 4 below)]
  simp only [same]

/-! ## Single-bit types -/

variable [Arithmetic F]

/-- A turn on a single-bit type delivers what is expected, and changes only the text of
the log mail. -/
theorem turn_exact {callers : List Caller} {office : Office} (exact : Exact callers office)
    (mailDataSize : Nat) (errs : Text) (mail : Mail F) (row : Nat) (below : row < mtSize)
    (single : mail.type = 2 ^ row) :
    ∃ (left : Text) (sent : Sent F) (unsubscribed : Bool),
      turn mailDataSize office (mailLog errs) mail = some ⟨mailLog left, sent, unsubscribed⟩ ∧
        ∀ box, received box sent = expected mailDataSize callers box mail := by
  by_cases emergency : mail.type = mtPostman
  · refine ⟨errs, [], false, by simp [turn, emergency], fun box => ?_⟩
    simp [expected, emergency]
  · have turned := turn_row mailDataSize office (mailLog errs) mail row
      (by rw [single, log2_bit]) below emergency
    by_cases empty : office.sSize row = 0
    · have none := (size_eq_zero_iff exact row below).mp empty
      rw [if_pos empty, nobody_eq] at turned
      refine ⟨_, _, _, turned, fun box => ?_⟩
      rw [received_nobody exact, expected, if_neg emergency, single, none]
      simp
    · have some := (size_eq_zero_iff exact row below).not.mp empty
      rw [if_neg empty] at turned
      refine ⟨_, _, _, turned, fun box => ?_⟩
      have same := (row_perm exact row below).mem_iff (a := box)
      rw [received_boxes _ box mail (exact.once row below), expected, if_neg emergency, single]
      simp [same, some]

/-- A run delivers what is expected, whatever text the log mail holds from earlier
mails. By induction on the mails, each of which is one turn. -/
theorem deliver_exact {callers : List Caller} {office : Office} (exact : Exact callers office)
    (mailDataSize : Nat) (errs : Text) (mails : List (Mail F))
    (single : ∀ mail ∈ mails, ∃ row < mtSize, mail.type = 2 ^ row) :
    ∃ sent, deliver mailDataSize office (mailLog errs) mails = some sent ∧
      ∀ box, received box sent = mails.flatMap (expected mailDataSize callers box) := by
  induction mails generalizing errs with
  | nil => exact ⟨[], rfl, fun _ => rfl⟩
  | cons mail rest inductionHypothesis =>
    obtain ⟨row, below, type⟩ := single mail List.mem_cons_self
    obtain ⟨left, first, _, turned, firstExact⟩ :=
      turn_exact exact mailDataSize errs mail row below type
    obtain ⟨others, delivered, othersExact⟩ :=
      inductionHypothesis left fun other member => single other (List.mem_cons_of_mem _ member)
    refine ⟨first ++ others, ?_, fun box => ?_⟩
    · simp [deliver, turned, delivered]
    · rw [received_append, firstExact, othersExact, List.flatMap_cons]

/-- Every box receives exactly the mails meant for it, in the order in which the postman
takes them, and in place of one nobody subscribed to each storage box receives a log
mail.

Proof: the table is exact, so that the row of a single-bit type holds its subscribers
once each. A turn then delivers what is expected of its mail, and a run goes on from
turn to turn. -/
theorem routing_exact (mailDataSize : Nat) (callers : List Caller) (office : Office)
    (built : Built callers office) (mails : List (Mail F))
    (single : ∀ mail ∈ mails, ∃ row < mtSize, mail.type = 2 ^ row) :
    ∃ sent, postmanDeliver mailDataSize office mails = some sent ∧
      ∀ box, received box sent = mails.flatMap (expected mailDataSize callers box) :=
  deliver_exact built.exact mailDataSize [] mails single

/-- The postman and one storage process, which is the smallest office that can log. -/
def twoCallers : List Caller := [⟨0, 64⟩, ⟨1, 16⟩]

/-- Their office, the postman having left the barrier, so that the table is complete. -/
def twoOffice : Office :=
  (Runs.after (subscribe twoCallers) (started 1 (fun _ => 0) 2)
    (List.replicate 13 0 ++ List.replicate 13 1 ++ [0])).office

/-- It is built by the schedule that its definition runs. -/
theorem two_built : Built twoCallers twoOffice :=
  ⟨1, _, _, 0, admissible_of_nodup (by decide) (by decide), by decide +kernel, rfl⟩

/-- A number for the storage process and one nobody subscribed to: the first arrives,
and the second as a log mail. -/
theorem two_mails_routed :
    ∃ sent, postmanDeliver 256 twoOffice
        [(⟨1, 2 ^ 4, .int 3, []⟩ : Mail ℚ), ⟨1, 2 ^ 3, .int 5, []⟩] = some sent ∧
      ∀ box, received box sent = [(⟨1, 2 ^ 4, .int 3, []⟩ : Mail ℚ),
        ⟨1, 2 ^ 3, .int 5, []⟩].flatMap (expected 256 twoCallers box) := by
  apply routing_exact 256 twoCallers twoOffice two_built
  simp only [List.forall_mem_cons]
  exact ⟨⟨4, by decide, rfl⟩, ⟨3, by decide, rfl⟩, by simp⟩

/-! ## All types -/

/-- The type selects a row of the table, which has one for each of nine bits. -/
def ValidRow (type : Int) : Prop := ∃ row < mtSize, log2 type = some row

/-- A turn that reads only rows of the table, sends nothing to box 0, and takes a type
without a row for one nobody subscribed to. -/
def Safe (mailDataSize : Nat) (office : Office) (log mail : Mail F) : Prop :=
  ∃ taken, turn mailDataSize office log mail = some taken ∧
    (∀ delivery ∈ taken.sent, delivery.1 ≠ 0) ∧ (¬ ValidRow mail.type → taken.unsubscribed = true)

/-- The postman's subscription: box 0, and mails for itself. -/
def postmanCaller : Caller := ⟨0, 64⟩

/-- Box 0 is in the postman's row and in no other, since its id is no other caller's. -/
theorem zero_mem_row {callers : List Caller} {office : Office} (built : Built callers office)
    (postman : postmanCaller ∈ callers) (row : Nat) (below : row < mtSize) :
    (0 : Int) ∈ office.row row ↔ row = 6 := by
  have members := (built.exact.rows row below).mem_iff (a := 0)
  obtain ⟨boxes, _, _, _, admissible, _⟩ := built
  have alone : ∀ caller ∈ callers, caller.mask ≠ 0 → caller.id = 0 → caller = postmanCaller := by
    intro caller member some zero
    obtain ⟨i, found⟩ := List.mem_iff_getElem?.mp member
    obtain ⟨j, own⟩ := List.mem_iff_getElem?.mp postman
    obtain rfl := admissible.distinct i j caller postmanCaller found own some (by decide) zero
    exact Option.some.inj (found.symm.trans own)
  have bits : postmanCaller.wants row = true ↔ row = 6 := by
    simp only [mtSize] at below
    interval_cases row <;> decide
  rw [members, ← bits, List.mem_map]
  constructor
  · rintro ⟨caller, member, zero⟩
    obtain ⟨among, wants⟩ := List.mem_filter.mp member
    rwa [alone caller among (mask_ne_zero caller row wants) zero] at wants
  · intro wants
    exact ⟨postmanCaller, List.mem_filter.mpr ⟨postman, wants⟩, rfl⟩

/-- The row of a positive type is in the table when the type is below `MT_MAX`, and is
the postman's from its own type to twice it. -/
theorem log2_row (type : Int) (positive : 0 < type) :
    ∃ row, log2 type = some row ∧ (row < mtSize ↔ type < 512) ∧
      (row = 6 ↔ 64 ≤ type ∧ type < 128) ∧ (type < 2 ^ 31 → row < mtMax) := by
  have some : type.toNat ≠ 0 := by omega
  have below := fun bound => Nat.log_lt_iff_lt_pow (b := 2) (x := bound) (by decide) some
  refine ⟨Nat.log 2 type.toNat, by simp [log2, positive], ?_, ?_, ?_⟩
  · rw [mtSize, below]
    omega
  · have six := below 6
    have seven := below 7
    omega
  · intro int
    have all := (below 31).mpr (by omega)
    rw [mtMax]
    omega

/-- Types nobody subscribed to are handled safely: the log mail goes to the boxes of the
storage, which are not box 0. -/
theorem nobody_safe {callers : List Caller} {office : Office} (built : Built callers office)
    (postman : postmanCaller ∈ callers) (mailDataSize : Nat) (errs : Text) (mail : Mail F)
    (turned : turn mailDataSize office (mailLog errs) mail =
      nobody mailDataSize office (mailLog errs) mail) :
    Safe mailDataSize office (mailLog errs) mail := by
  rw [nobody_eq] at turned
  refine ⟨_, turned, ?_, fun _ => rfl⟩
  intro delivery member zero
  obtain ⟨box, among, rfl⟩ := List.mem_map.mp member
  rw [show box = 0 from zero, zero_mem_row built postman 4 (by decide)] at among
  cases among

/-- A turn without a result is not safe, as it has read behind the table. -/
theorem not_safe_of_none (mailDataSize : Nat) (office : Office) (log mail : Mail F)
    (undefined : turn mailDataSize office log mail = none) :
    ¬ Safe mailDataSize office log mail := by
  rintro ⟨_, turned, _⟩
  rw [undefined] at turned
  cases turned

/-- A mail sent by a row is handled safely if box 0 is not in the row. -/
theorem row_safe_iff (mailDataSize : Nat) (office : Office) (log mail : Mail F) (row : Nat)
    (selects : log2 mail.type = some row) (below : row < mtSize)
    (turned : turn mailDataSize office log mail =
      some ⟨log, (office.row row).map fun box => (box, mail), false⟩) :
    Safe mailDataSize office log mail ↔ (0 : Int) ∉ office.row row := by
  constructor
  · rintro ⟨_, again, sends, _⟩ member
    obtain rfl := Option.some.inj (turned.symm.trans again)
    exact sends (0, mail) (List.mem_map.mpr ⟨0, member, rfl⟩) rfl
  · intro absent
    refine ⟨_, turned, ?_, fun none => absurd ⟨row, below, selects⟩ none⟩
    intro delivery member zeroBox
    obtain ⟨box, among, rfl⟩ := List.mem_map.mp member
    exact absent (zeroBox ▸ among)

/-- An empty row is not the postman's, which has the postman in it. -/
theorem empty_row_ne {callers : List Caller} {office : Office} (built : Built callers office)
    (postman : postmanCaller ∈ callers) (row : Nat) (empty : office.sSize row = 0) : row ≠ 6 := by
  rintro rfl
  have member := (zero_mem_row built postman 6 (by decide)).mpr rfl
  simp [Office.row, empty] at member

/-- The types handled safely, by the row they select. The cases are a type without a
row, an empty row, the postman's, and any other. -/
theorem safe_iff {callers : List Caller} {office : Office} (built : Built callers office)
    (postman : postmanCaller ∈ callers) (mailDataSize : Nat) (errs : Text) (mail : Mail F)
    (int : mail.type < 2 ^ 31) :
    Safe mailDataSize office (mailLog errs) mail ↔
      0 ≤ mail.type ∧ mail.type < 512 ∧ (mail.type ≤ 64 ∨ 128 ≤ mail.type) := by
  by_cases emergency : mail.type = mtPostman
  · have turned : turn mailDataSize office (mailLog errs) mail =
        some ⟨mailLog errs, [], false⟩ := by
      simp [turn, emergency]
    have valid : ValidRow mail.type := ⟨6, by decide, by rw [emergency]; exact log2_bit 6⟩
    have safe : Safe mailDataSize office (mailLog errs) mail :=
      ⟨_, turned, by simp, fun none => absurd valid none⟩
    simp [safe, emergency, mtPostman]
  by_cases zero : mail.type = 0
  · have turned := turn_zero mailDataSize office (mailLog errs) mail zero
    simp [nobody_safe built postman mailDataSize errs mail turned, zero]
  by_cases negative : mail.type < 0
  · have undefined : turn mailDataSize office (mailLog errs) mail = none := by
      simp [turn, emergency, zero, log2, Int.not_lt.mpr (Int.le_of_lt negative)]
    exact iff_of_false (not_safe_of_none _ _ _ _ undefined) (by omega)
  obtain ⟨row, selects, inTable, own, small⟩ := log2_row mail.type (by omega)
  by_cases below : row < mtSize
  · have turned := turn_row mailDataSize office (mailLog errs) mail row selects below emergency
    by_cases empty : office.sSize row = 0
    · rw [if_pos empty] at turned
      have other := empty_row_ne built postman row empty
      have safe := nobody_safe built postman mailDataSize errs mail turned
      simp only [safe, true_iff]
      omega
    · rw [if_neg empty] at turned
      rw [row_safe_iff mailDataSize office _ mail row selects below turned,
        zero_mem_row built postman row below]
      simp only [mtPostman] at emergency
      omega
  · have outside : turn mailDataSize office (mailLog errs) mail = none := by
      have guarded := small int
      simp [turn, emergency, zero, selects, Nat.not_le.mpr guarded, sizeAt, below]
    exact iff_of_false (not_safe_of_none _ _ _ _ outside)
      fun bounds => below (inTable.mpr bounds.2.1)

/-- The postman handles a mail safely exactly when its type is an `int` from 0 up to
`MT_MAX` and is not above the postman's own type with the same highest bit.

Proof: the row is that of the highest bit. From `MT_MAX` on it is behind the table; the
postman's own holds box 0; and all others are safe, empty or not. -/
theorem routing_safe_iff (mailDataSize : Nat) (callers : List Caller) (office : Office)
    (built : Built callers office) (postman : postmanCaller ∈ callers) (errs : Text)
    (mail : Mail F) (int : mail.type < 2 ^ 31) :
    Safe mailDataSize office (mailLog errs) mail ↔
      0 ≤ mail.type ∧ mail.type < 512 ∧ (mail.type ≤ 64 ∨ 128 ≤ mail.type) :=
  safe_iff built postman mailDataSize errs mail int

/-- A mail for the storage process alone, whose row holds just its box. -/
theorem storage_mail_safe :
    Safe 256 twoOffice (mailLog []) (⟨1, 16, .int 3, []⟩ : Mail ℚ) :=
  (routing_safe_iff 256 twoCallers twoOffice two_built (by decide) [] _ (by decide)).mpr
    (by decide)

/-- A mail for the storage process and the postman is put into the queue of box 0. -/
theorem combined_mail_unsafe :
    Built twoCallers twoOffice ∧ postmanCaller ∈ twoCallers ∧
      ¬ Safe 256 twoOffice (mailLog []) (⟨1, 80, .int 3, []⟩ : Mail ℚ) := by
  have size : twoOffice.sSize 6 ≠ 0 := fun empty =>
    empty_row_ne two_built (by decide) 6 empty rfl
  have selects : log2 80 = some 6 := by decide
  have turned := turn_row 256 twoOffice (mailLog []) (⟨1, 80, .int 3, []⟩ : Mail ℚ) 6 selects
    (by decide) (by decide)
  rw [if_neg size] at turned
  refine ⟨two_built, by decide, ?_⟩
  rw [row_safe_iff 256 twoOffice _ _ 6 selects (by decide) turned,
    zero_mem_row two_built (by decide) 6 (by decide)]
  decide

end EventRecorder.Routing
