import EventRecorder.IndexArithmetic

/-!
# Reading back

`cbuf_mail_read` goes back by one slot and delivers the mail there. After any number of
writes, reads deliver the mails written last, from the newest to the oldest, as long as
the buffer still has them; the mails that were read can be written again.
-/

namespace EventRecorder.ReadBack

open CircularMail (CbufMail Read InRange write_in_range)
open IndexArithmetic

universe u
variable {α : Type u}

/-- Several calls of `cbuf_mail_write` in a row. The first that is undefined makes the
whole undefined. -/
def writes (cbuf : CbufMail α) (mails : List α) : Option (CbufMail α) :=
  mails.foldlM cbufMailWrite cbuf

/-- Several calls of `cbuf_mail_read`: the slot that each finds and the mail it
delivers, in the order of the calls, and the buffer after the last. -/
def reads : Nat → CbufMail α → Option (List (Int × Read α) × CbufMail α)
  | 0, cbuf => some ([], cbuf)
  | count + 1, cbuf =>
    (cbufMailRead cbuf).bind fun moved =>
      (reads count moved).map fun rest => ((moved.index, moved.read) :: rest.1, rest.2)

/-- After writes, reads deliver the last mails written from newest to oldest, a write would
go to the slot of the oldest mail read, and writing these mails again leads to the same
buffer as before the reads. -/
def ReadsBack (cbuf : CbufMail α) (mails : List α) (count : Nat) : Prop :=
  ∃ written found last,
    writes cbuf mails = some written ∧ reads count written = some (found, last) ∧
    found.map Prod.snd = (mails.drop (mails.length - count)).reverse.map .value ∧
    (∀ oldest ∈ found.getLast?, last.index = oldest.1) ∧
    writes last (mails.drop (mails.length - count)) = some written

/-- A write to a buffer that is small enough, by slot: the mail goes where its position
in the sequence falls, and the index to the next. -/
theorem write_at (cbuf : CbufMail α) (mail : α) (position : Nat)
    (allocated : cbuf.buf.length = cbuf.size) (positive : 0 < cbuf.size)
    (small : cbuf.size < 2 ^ 31) (index : cbuf.index = (position % cbuf.size : Nat)) :
    cbufMailWrite cbuf mail = some ⟨cbuf.buf.set (position % cbuf.size) (some mail), cbuf.size,
      ((position + 1) % cbuf.size : Nat)⟩ := by
  have less : position % cbuf.size < cbuf.size := Nat.mod_lt _ positive
  have inRange : InRange cbuf := ⟨allocated, by omega, by omega⟩
  have slot : cbuf.index.toNat = position % cbuf.size := by rw [index, Int.toNat_natCast]
  rw [write_exact cbuf mail inRange.lower (by omega), write_in_range cbuf mail inRange, slot,
    Nat.mod_add_mod]

/-- A read from a buffer that is small enough, by slot: the index goes back to where the
mail before it was written. -/
theorem read_at (cbuf : CbufMail α) (position : Nat) (positive : 0 < cbuf.size)
    (small : cbuf.size < 2 ^ 31) (index : cbuf.index = ((position + 1) % cbuf.size : Nat)) :
    cbufMailRead cbuf = some { cbuf with index := (position % cbuf.size : Nat) } := by
  have less : position % cbuf.size < cbuf.size := Nat.mod_lt _ positive
  have nextLess : (position + 1) % cbuf.size < cbuf.size := Nat.mod_lt _ positive
  have fits := (checked_eq_some_iff (cbuf.index - 1) _).mpr ⟨by omega, rfl⟩
  have back : (if cbuf.index - 1 < 0 then toInt (toSize (cbuf.size - 1)) else cbuf.index - 1) =
      (position % cbuf.size : Nat) := by
    by_cases turn : position % cbuf.size + 1 = cbuf.size
    · have first : (position + 1) % cbuf.size = 0 := by
        rw [← Nat.mod_add_mod, turn, Nat.mod_self]
      obtain ⟨turns, wrapped, _, _⟩ := to_int_turns (toSize (cbuf.size - 1))
      have sum := to_size_cast (cbuf.size - 1)
      rw [if_pos (by omega)]
      omega
    · have further : (position + 1) % cbuf.size = position % cbuf.size + 1 := by
        rw [← Nat.mod_add_mod, Nat.mod_eq_of_lt (by omega)]
      rw [if_neg (by omega)]
      omega
  simp only [cbufMailRead, fits, Option.map_some, back]

/-- A buffer to which mails have been written from a slot on, with its index behind the first
so many of them. -/
structure Written (start : Nat) (mails : List α) (count : Nat) (cbuf : CbufMail α) : Prop where
  allocated : cbuf.buf.length = cbuf.size
  positive : 0 < cbuf.size
  small : cbuf.size < 2 ^ 31
  recent : Ring.Recent cbuf.size start cbuf.buf mails
  position : cbuf.index = ((start + count) % cbuf.size : Nat)

/-- The slot of a mail that the buffer still has, counted from the first mail written. -/
theorem Written.cell {start count : Nat} {mails : List α} {cbuf : CbufMail α}
    (written : Written start mails count cbuf) (position : Nat) (inside : position < mails.length)
    (kept : mails.length - position ≤ cbuf.size) :
    cbuf.buf[(start + position) % cbuf.size]? = some (some mails[position]) := by
  have back := written.recent (mails.length - position) (by omega) kept (by omega)
  have forward : mails.length - (mails.length - position) = position := by omega
  rw [forward, List.getElem?_eq_getElem inside] at back
  exact back

/-- Mails written are there, and the index is behind them. The proof is by induction on
the mails still to write. -/
theorem writes_written {start : Nat} (more mails : List α) (cbuf : CbufMail α)
    (written : Written start mails mails.length cbuf) :
    ∃ after, writes cbuf more = some after ∧ after.size = cbuf.size ∧
      Written start (mails ++ more) (mails ++ more).length after := by
  induction more generalizing mails cbuf with
  | nil => exact ⟨cbuf, rfl, rfl, by simpa using written⟩
  | cons mail rest inductionHypothesis =>
    obtain ⟨allocated, positive, small, recent, position⟩ := written
    have first := write_at cbuf mail (start + mails.length) allocated positive small position
    have next : Written start (mails ++ [mail]) (mails ++ [mail]).length
        ⟨cbuf.buf.set ((start + mails.length) % cbuf.size) (some mail), cbuf.size,
          ((start + mails.length + 1) % cbuf.size : Nat)⟩ := by
      refine ⟨by simpa using allocated, positive, small, ?_, ?_⟩
      · exact Ring.write_recent mail positive allocated recent
      · simp [Nat.add_assoc]
    obtain ⟨after, others, same, whole⟩ := inductionHypothesis (mails ++ [mail]) _ next
    refine ⟨after, ?_, same, by simpa using whole⟩
    rw [writes, List.foldlM_cons, first]
    exact others

/-- The buffer with its index at the slot of a mail. Reads and the writes that follow
differ from one another in nothing else. -/
def seek (cbuf : CbufMail α) (position : Nat) : CbufMail α :=
  { cbuf with index := (position % cbuf.size : Nat) }

/-- A read goes to the mail before the index and delivers it, and leaves the buffer in
the same relation to the mails with one fewer of them ahead. -/
theorem read_written (count : Nat) {start : Nat} {mails : List α} {cbuf : CbufMail α}
    (written : Written start mails (count + 1) cbuf) (inside : count < mails.length)
    (kept : mails.length - count ≤ cbuf.size) :
    cbufMailRead cbuf = some (seek cbuf (start + count)) ∧
      (seek cbuf (start + count)).read = .value mails[count] ∧
      Written start mails count (seek cbuf (start + count)) := by
  have cell := written.cell count inside kept
  obtain ⟨allocated, positive, small, recent, position⟩ := written
  refine ⟨read_at cbuf (start + count) positive small position, ?_, ?_⟩
  · rw [CbufMail.read, seek, if_neg (Int.not_lt.mpr (Int.natCast_nonneg _)), Int.toNat_natCast,
      cell]
    rfl
  · exact ⟨allocated, positive, small, recent, rfl⟩

/-- Reads go back over the mails before the index and deliver them from the newest to
the oldest, by induction on their number. -/
theorem reads_written (count more : Nat) {start : Nat} {mails : List α} (cbuf : CbufMail α)
    (written : Written start mails (count + more) cbuf) (inside : count + more ≤ mails.length)
    (kept : mails.length - count ≤ cbuf.size) :
    ∃ found, reads more cbuf = some (found, seek cbuf (start + count)) ∧
      found.map Prod.snd = ((mails.drop count).take more).reverse.map .value := by
  induction more generalizing cbuf with
  | zero =>
    have there : seek cbuf (start + count) = cbuf := by
      have position := written.position
      rw [Nat.add_zero] at position
      rw [seek, ← position]
    exact ⟨[], by rw [there, reads], rfl⟩
  | succ more inductionHypothesis =>
    obtain ⟨first, value, moved⟩ :=
      read_written (count + more) written inside (by omega)
    obtain ⟨found, others, values⟩ := inductionHypothesis _ moved (by omega) kept
    refine ⟨((seek cbuf (start + (count + more))).index, .value mails[count + more]) :: found,
      ?_, ?_⟩
    · rw [reads, first, Option.bind_some, others, Option.map_some, value]
      rfl
    · have last : (mails.drop count)[more]? = some mails[count + more] := by
        rw [List.getElem?_drop, List.getElem?_eq_getElem]
      rw [List.take_add_one, last, List.map_cons, values]
      simp

/-- The buffer ends at the slot of the mail read last, which is where writing continues. -/
theorem reads_last (count : Nat) (cbuf last : CbufMail α) (found : List (Int × Read α))
    (delivered : reads count cbuf = some (found, last)) :
    found.length = count ∧ ∀ oldest ∈ found.getLast?, last.index = oldest.1 := by
  induction count generalizing cbuf found with
  | zero =>
    obtain ⟨rfl, rfl⟩ := Prod.mk.inj (Option.some.inj delivered)
    exact ⟨rfl, nofun⟩
  | succ count inductionHypothesis =>
    obtain ⟨moved, -, others⟩ := Option.bind_eq_some_iff.mp delivered
    obtain ⟨⟨rest, there⟩, reading, same⟩ := Option.map_eq_some_iff.mp others
    obtain ⟨rfl, rfl⟩ := Prod.mk.inj same
    obtain ⟨length, further⟩ := inductionHypothesis moved rest reading
    refine ⟨by rw [List.length_cons, length], ?_⟩
    cases count with
    | zero =>
      obtain ⟨rfl, rfl⟩ := Prod.mk.inj (Option.some.inj reading)
      rintro oldest ⟨rfl⟩
      rfl
    | succ count =>
      have some : rest ≠ [] := List.ne_nil_of_length_eq_add_one length
      rwa [List.getLast?_cons_of_ne_nil some]

/-- Mails written where they are already change nothing but the index, because each
overwrites its own slot with the same value. -/
theorem rewrites {start count : Nat} {mails : List α} (cbuf : CbufMail α)
    (written : Written start mails count cbuf) (inside : count ≤ mails.length)
    (kept : mails.length - count ≤ cbuf.size) :
    writes cbuf (mails.drop count) = some (seek cbuf (start + mails.length)) := by
  induction remaining : mails.length - count generalizing count cbuf with
  | zero =>
    have whole : count = mails.length := by omega
    have there : seek cbuf (start + mails.length) = cbuf := by
      rw [seek, ← whole, ← written.position]
    rw [there, List.drop_eq_nil_of_le (by omega)]
    rfl
  | succ remaining inductionHypothesis =>
    have further : count < mails.length := by omega
    have cell := written.cell count further kept
    obtain ⟨allocated, positive, small, recent, position⟩ := written
    have same : cbuf.buf.set ((start + count) % cbuf.size) (some mails[count]) = cbuf.buf := by
      obtain ⟨stored, value⟩ := List.getElem?_eq_some_iff.mp cell
      rw [← value, List.set_getElem_self]
    have first := write_at cbuf mails[count] (start + count) allocated positive small position
    rw [same] at first
    have next : Written start mails (count + 1) (seek cbuf (start + count + 1)) :=
      ⟨allocated, positive, small, recent, rfl⟩
    have others := inductionHypothesis _ next further (by simp only [seek]; omega) (by omega)
    rw [List.drop_eq_getElem_cons further, writes, List.foldlM_cons, first]
    exact others

/-- From every index of a buffer whose size is an `int`, reads deliver the last mails
written from newest to oldest, and these can be written again.

Proof: the writes establish `Written`, which the reads run backwards over, and the mails
that were read then are what `rewrites` stores again. The bound on the size keeps every
index an `int`. -/
theorem reads_back (cbuf : CbufMail α) (inRange : InRange cbuf) (small : cbuf.size ≤ 2 ^ 31 - 1)
    (mails : List α) (count : Nat) (few : count ≤ min mails.length cbuf.size) :
    ReadsBack cbuf mails count := by
  obtain ⟨allocated, lower, upper⟩ := inRange
  have start : Written cbuf.index.toNat [] ([] : List α).length cbuf := by
    refine ⟨allocated, by omega, by omega, fun back positive _ beyond => ?_, ?_⟩
    · exact absurd beyond (by simpa using Nat.pos_iff_ne_zero.mp positive)
    · rw [List.length_nil, Nat.add_zero, Nat.mod_eq_of_lt (by omega), Int.toNat_of_nonneg lower]
  obtain ⟨written, writing, size, there⟩ := writes_written mails [] cbuf start
  rw [List.nil_append] at there
  have behind : mails.length - count + count = mails.length := by omega
  have kept : mails.length - (mails.length - count) ≤ written.size := by omega
  obtain ⟨found, reading, values⟩ := reads_written (mails.length - count) count written
    (by rwa [behind]) (by omega) kept
  have all : (mails.drop (mails.length - count)).take count = mails.drop (mails.length - count) :=
    List.take_of_length_le (by rw [List.length_drop]; omega)
  refine ⟨written, found, _, writing, reading, by rw [values, all],
    (reads_last count written _ found reading).2, ?_⟩
  have back : Written cbuf.index.toNat mails (mails.length - count)
      (seek written (cbuf.index.toNat + (mails.length - count))) :=
    ⟨there.allocated, there.positive, there.small, there.recent, rfl⟩
  rw [rewrites _ back (by omega) kept, seek, seek]
  congr
  exact there.position.symm

/-- Three mails to two slots: the first of them is overwritten, and the last two are
read back. -/
theorem two_read_back : ReadsBack ⟨[none, none], 2, 1⟩ [5, 6, 7] 2 :=
  reads_back _ ⟨rfl, by decide, by decide⟩ (by decide) _ _ (by decide)

/-- A buffer with one slot more than there are numbers for, at the last of these. -/
def large : CbufMail Nat := ⟨List.replicate (2 ^ 31 + 1) none, 2 ^ 31 + 1, 2 ^ 31 - 1⟩

/-- A write to the last slot that has an `int` for its number is undefined, so that the
bound on the size cannot be left out. -/
theorem large_not_read_back :
    ¬ ∀ (cbuf : CbufMail Nat) (mails : List Nat) (count : Nat), InRange cbuf →
      count ≤ min mails.length cbuf.size → ReadsBack cbuf mails count := by
  intro every
  have inRange : InRange large := ⟨List.length_replicate, by decide, by decide⟩
  have overflow : checked (large.index + 1) = none := by decide
  obtain ⟨written, _, _, writing, -⟩ := every large [5] 1 inRange (by decide)
  rw [writes, List.foldlM_cons, cbufMailWrite, overflow] at writing
  cases writing

end EventRecorder.ReadBack
