import EventRecorder.Columns
import EventRecorder.OwnChannel
import EventRecorder.RandomLog

/-!
# The replay of a table

A table goes through the extractor, the logger of random order, `canplayer`, `candump`
and the broker before the recorder sees its values again. Whatever order the directory
is listed in and `random.choice` decides, no frame is changed or refused, and the mails
of each channel carry the values of its column in their order.

`canplayer` and `candump` are programs of another project. What is relied on of them is
a parameter: that the frames of a log, sent by the one, are written by the other in their
order, that none is lost between them, and how the lines are formed. Nothing is said of
logs of another form.
-/

namespace EventRecorder.Replay

open CText Binary64 Python Extractor GeneratedFrames Columns RandomLog
open Sha Frames FrameAuthentication LineFraming OwnChannel Interleaving

/-- `str.replace ('_-_', '_')`, from the left and without overlaps. -/
def joined : Text → Text
  | '_' :: '-' :: '_' :: rest => '_' :: joined rest
  | c :: rest => c :: joined rest
  | [] => []

/-- `canonicalize_path`, which makes a name of a column the name of a file. -/
def canonicalizePath (string : Text) : Text :=
  joined (string.map fun c => if c = '/' then '-' else c)

/-- A file by its name and its lines. -/
structure File where
  name : Text
  lines : List Text

/-- The two files of a column. Only the lines of the first are read again. -/
def columnFiles (sha3 : Sha3) (df : Text → List Text) (column : Nat × Text) :
    Except Exception (List File) := do
  let rows ← payloads sha3 column.1 (nlist df column.2)
  let copy ← padded (nlist df column.2)
  return [⟨canonicalizePath column.2 ++ ".csv".toList, rows⟩,
    ⟨canonicalizePath column.2 ++ "-non_crypto.csv".toList, copy⟩]

/-- The files that `extractor.py` writes for a table, if no column raises an exception. -/
def extract (sha3 : Sha3) (df : Text → List Text) : Except Exception (List File) :=
  (csvCols.mapM (columnFiles sha3 df)).map List.flatten

/-- `not file.endswith ("-non_crypto.csv")`, by which the logger leaves the copies out. -/
def hasFrames (file : File) : Bool := !"-non_crypto.csv".toList.isSuffixOf file.name

/-- `file_contents`, for the files that `os.listdir` finds, in the order in which it
finds them. -/
def fileContents (files : List File) : List (List Text) :=
  (files.filter hasFrames).map File.lines

/-! ## The programs between -/

/-- The payload of a frame as a log has it: an identifier of three digits, which are taken
as hexadecimal ones and have to fit eleven bits, and the digits of up to eight bytes. -/
structure IsFrame (row : Text) : Prop where
  parts : ∃ identifier data bytes, row = identifier ++ '#' :: data ∧ identifier.length = 3 ∧
    (∀ c ∈ identifier, c.isDigit = true) ∧ ofDigits 16 identifier < 2 ^ 11 ∧
    bytes ≤ 8 ∧ IsHexDigits bytes data

/-- What is relied on of `canplayer -I` and `candump -L` on one bus.

`replay` is the text that `candump` writes while `canplayer` sends the frames of a log. Of a
log of frames for this bus it has a line for each, in their order: the frame, with its data
in upper case, behind the time of its arrival, for which there are seventeen characters, and
the name of the bus. -/
structure CanUtils where
  bus : Interface
  replay : List Text → Text
  relays : ∀ (times : Nat → ℚ) (rows : List Text), (∀ row ∈ rows, IsFrame row) →
    ∃ stamp : Nat → Time, (∀ arrival, (timeText (stamp arrival)).length = 17) ∧
      replay (rows.mapIdx fun line row => logLine (.finite false (times line)) bus row) =
        (rows.mapIdx fun arrival row =>
          logLine (stamp arrival) bus (reemitted row) ++ ['\n']).flatten

/-! ## Frames -/

/-- A frame: its identifier and the digits of its value. The hash follows from these. -/
structure DataFrame where
  pid : Nat
  hex : Text

/-- A frame that can be a row of a column: its identifier is that of one, and its value has
the digits of four bytes. -/
structure DataFrame.Valid (frame : DataFrame) : Prop where
  own : ∃ column ∈ csvCols, frame.pid = column.1
  digits : IsHexDigits 4 frame.hex

/-- Its identifier is a number of three digits, and not zero, so that it is read back
from them. -/
theorem DataFrame.Valid.pid {frame : DataFrame} (valid : frame.Valid) :
    frame.pid ≠ 0 ∧ frame.pid ≤ 999 := by
  have bounds : ∀ column ∈ csvCols, column.1 ≠ 0 ∧ column.1 ≤ 999 := by decide
  obtain ⟨column, known, same⟩ := valid.own
  rw [same]
  exact bounds column known

/-- Its payload, with the hash of identifier and value. -/
def DataFrame.row (sha3 : Sha3) (frame : DataFrame) : Text :=
  pidText frame.pid ++
    '#' :: (frame.hex ++ hexDigits (sha3 (pidText frame.pid ++ frame.hex)).toList 4)

/-- Its mail: the sample that safety is to receive for it. -/
def DataFrame.mail {F : Type} [Arithmetic F] (frame : DataFrame) : Mail F :=
  safetyMail frame.pid (hexGetFloat frame.hex)

/-- A payload is the row of the frame its value is encoded in, for every cell that can
be encoded. -/
theorem payload_row (sha3 : Sha3) (pid : Nat) (text : Text) :
    payload sha3 pid text = (toHexString text).map fun hex => DataFrame.row sha3 ⟨pid, hex⟩ := by
  cases encoded : toHexString text with
  | error exception =>
    rw [payload, encoded]
    rfl
  | ok hex =>
    rw [payload, encoded]
    change Except.ok _ = Except.ok _
    rw [hash_eq]
    simp [DataFrame.row]

/-- An identifier is read back as its number, zeros in front included. -/
theorem atoi_pid (pid : Nat) (three : pid ≤ 999) : atoi (pidText pid) = pid := by
  obtain ⟨length, digits⟩ := pid_text_digits pid three
  have some : pidText pid ≠ [] := List.ne_nil_of_length_pos (by omega)
  obtain ⟨c, rest, shape⟩ := List.exists_cons_of_ne_nil some
  have sign : scanSign (pidText pid) = (false, pidText pid) := by
    rw [shape]
    exact scan_sign_digit c (digits c (by rw [shape]; exact List.mem_cons_self)) rest
  have number : ofDigits 10 (pidText pid) = pid := by
    rw [pidText, zero_padded_nat]
    exact of_digits_filled 3 10 pid (by decide) (by decide)
  rw [atoi_of_sign _ false _ sign digits, number]
  simp only [toInt]
  rw [if_neg (by decide)]
  apply (Int.bmod_eq_of_le _ _).trans
  · omega
  · omega
  · omega

section

variable [LogHeader]

/-- A frame that arrives is accepted and sent as its mail, after whatever lines have
come before it. -/
theorem frame_mails {F : Type} [Arithmetic F] (sha3 : Sha3) (before : List Reception)
    (frame : DataFrame) (valid : frame.Valid) (time : Time) (bus : Interface)
    (stamp : (timeText time).length = 17) :
    (mails sha3 (received sha3 before)
        ⟨logLine time bus (reemitted (frame.row sha3)) ++ ['\n'], .succeed⟩ : List (Mail F)) =
      [frame.mail] := by
  obtain ⟨some, three⟩ := valid.pid
  have digits := valid.digits
  have scannable := reemitted_scannable sha3 frame.pid frame.hex time bus three digits stamp
  have printable := reemitted_printable sha3 frame.pid frame.hex time bus three digits nul
    (.inl rfl)
  obtain ⟨canId, canData⟩ := frame_of_line scannable printable
  rw [upper_data_lower sha3 frame.pid frame.hex digits] at canData
  rw [DataFrame.row, reemitted_eq sha3 frame.pid frame.hex time bus three]
  set line := lineText (timeText time) bus.name (pidText frame.pid)
    (upperData sha3 frame.pid frame.hex) ++ ['\n'] with whole
  have idLength := (pid_text_digits frame.pid three).1
  have short : (frameOf line).canId.length + 1 = canIdLength := by
    rw [canId, idLength]
    rfl
  have valueLength : frame.hex.length = floatLength := digits.1
  have value : (frameOf line).value = frame.hex := by
    rw [Frame.value, canData, List.take_left' valueLength]
  have hash : (frameOf line).hash =
      hexDigits (sha3 ((frameOf line).canId ++ (frameOf line).value)).toList 4 := by
    have hashLength := (hex_digits_are_digits (sha3 (pidText frame.pid ++ frame.hex)) 4
      (by decide)).1
    rw [value, canId, Frame.hash, canData, List.drop_left' valueLength]
    exact List.take_of_length_le hashLength.le
  have accepted := (computed_exact sha3 before ⟨line, .succeed⟩ rfl (.inl short)).mpr ⟨rfl, hash⟩
  rw [verdict_zero_iff] at accepted
  obtain ⟨sent, _⟩ := broker_receive_law (F := F) sha3 .succeed line _
    (received_formed sha3 before).1
  have idString : (frameOf line).idString = pidText frame.pid := by
    rw [Frame.idString, canId, if_pos (by rw [idLength]; decide)]
  have number := atoi_pid frame.pid three
  have nonzero : atoi (pidText frame.pid) ≠ 0 := by
    rw [number]
    exact_mod_cast some
  rw [mails, sent, frameMail, if_pos accepted, idString, if_neg nonzero, number, Frame.float,
    value, DataFrame.mail]

omit [LogHeader] in
/-- A frame that arrives is a line that fits the buffer of the broker, which takes a
short name of the bus and a stamp of the usual width. -/
theorem frame_line_fits (sha3 : Sha3) (frame : DataFrame) (valid : frame.Valid) (time : Time)
    (bus : Interface) (stamp : (timeText time).length = 17) (short : bus.name.length ≤ 6) :
    '\n' ∉ logLine time bus (reemitted (frame.row sha3)) ∧
      (logLine time bus (reemitted (frame.row sha3))).length + 1 < canMsgLength := by
  have three := valid.pid.2
  have digits := valid.digits
  rw [DataFrame.row, reemitted_eq sha3 frame.pid frame.hex time bus three]
  have idLength := (pid_text_digits frame.pid three).1
  have dataLength := upper_data_length sha3 frame.pid frame.hex digits
  refine ⟨reemitted_printable sha3 frame.pid frame.hex time bus three digits '\n' (.inr rfl), ?_⟩
  simp only [lineText, List.length_cons, List.length_append, stamp, idLength, dataLength,
    canMsgLength]
  omega

/-- The lines of frames as they arrive, each with a time of its own. -/
def arriving (sha3 : Sha3) (stamp : Nat → Time) (bus : Interface) (frames : List DataFrame) :
    List Text :=
  frames.mapIdx fun arrival frame =>
    logLine (stamp arrival) bus (reemitted (frame.row sha3)) ++ ['\n']

omit [LogHeader] in
/-- Each of them is one message, because it fits and ends with the only newline in it. -/
theorem arriving_messages (sha3 : Sha3) (stamp : Nat → Time) (bus : Interface)
    (frames : List DataFrame) (valid : ∀ frame ∈ frames, frame.Valid)
    (stamps : ∀ arrival, (timeText (stamp arrival)).length = 17) (short : bus.name.length ≤ 6) :
    canRunReceive (arriving sha3 stamp bus frames).flatten = arriving sha3 stamp bus frames := by
  induction frames generalizing stamp with
  | nil => exact can_run_receive_nil
  | cons frame frames inductionHypothesis =>
    obtain ⟨first, others⟩ := List.forall_mem_cons.mp valid
    obtain ⟨newline, fits⟩ := frame_line_fits sha3 frame first (stamp 0) bus (stamps 0) short
    have split : arriving sha3 stamp bus (frame :: frames) =
        (logLine (stamp 0) bus (reemitted (frame.row sha3)) ++ ['\n']) ::
          arriving sha3 (fun arrival => stamp (arrival + 1)) bus frames := List.mapIdx_cons
    rw [split, List.flatten_cons, List.append_assoc, List.singleton_append,
      can_run_receive_short ⟨_, newline⟩ _ fits,
      inductionHypothesis (fun arrival => stamp (arrival + 1)) others fun arrival =>
        stamps (arrival + 1)]

/-- The frames of a log arrive as their mails, one for each in order. The induction is
on the frames from the last, on what the broker has received before it. -/
theorem arriving_mails {F : Type} [Arithmetic F] (sha3 : Sha3) (stamp : Nat → Time)
    (bus : Interface) (frames : List DataFrame) (valid : ∀ frame ∈ frames, frame.Valid)
    (stamps : ∀ arrival, (timeText (stamp arrival)).length = 17) (short : bus.name.length ≤ 6) :
    (sentMails sha3 (fun _ => .succeed) (arriving sha3 stamp bus frames).flatten :
      List (Mail F)) = frames.map DataFrame.mail := by
  rw [sent_mails_eq, arriving_messages sha3 stamp bus frames valid stamps short]
  induction frames using List.reverseRecOn with
  | nil => rfl
  | append_singleton frames frame inductionHypothesis =>
    have split : receptions (fun _ => .succeed) (arriving sha3 stamp bus (frames ++ [frame])) =
        receptions (fun _ => .succeed) (arriving sha3 stamp bus frames) ++
          [⟨logLine (stamp frames.length) bus (reemitted (frame.row sha3)) ++ ['\n'],
            .succeed⟩] := by
      simp [receptions, arriving]
    have last := frame_mails (F := F) sha3
      (receptions (fun _ => .succeed) (arriving sha3 stamp bus frames)) frame
      (valid frame (List.mem_append_right _ List.mem_cons_self)) (stamp frames.length) bus
      (stamps _)
    rw [received] at last
    rw [split, Runs.emitted_append, Runs.emitted_cons, last, Runs.emitted_nil,
      inductionHypothesis fun other member => valid other (List.mem_append_left _ member),
      List.map_append]
    rfl

end

/-! ## From the table to the frames -/

/-- The columns of a table: the frames of each, or the exception that encoding one of
them raises. -/
def columns (df : Text → List Text) : Except Exception (List (List DataFrame)) :=
  csvCols.mapM fun column =>
    (encoded (nlist df column.2)).map (List.map fun hex => ⟨column.1, hex⟩)

/-- The payloads of a column are the rows of its frames, one by one. -/
theorem payloads_rows (sha3 : Sha3) (pid : Nat) (cells : List Text) :
    payloads sha3 pid cells =
      (encoded cells).map (List.map fun hex => DataFrame.row sha3 ⟨pid, hex⟩) := by
  have all (texts : List Text) : texts.mapM (payload sha3 pid) =
      (texts.mapM toHexString).map (List.map fun hex => DataFrame.row sha3 ⟨pid, hex⟩) := by
    induction texts with
    | nil => rfl
    | cons text texts inductionHypothesis =>
      rw [List.mapM_cons, List.mapM_cons, payload_row, inductionHypothesis]
      cases toHexString text with
      | error => rfl
      | ok hex =>
        cases texts.mapM toHexString with
        | error => rfl
        | ok hexes => rfl
  rw [payloads, encoded]
  cases padded cells with
  | error => rfl
  | ok texts => exact all texts

/-- The files with frames are those of the columns, in the order of the columns. -/
theorem extract_columns (sha3 : Sha3) (df : Text → List Text) (files : List File)
    (extracted : extract sha3 df = .ok files) :
    ∃ frames, columns df = .ok frames ∧
      fileContents files = frames.map (List.map (DataFrame.row sha3)) := by
  have plain : ∀ column ∈ csvCols,
      hasFrames ⟨canonicalizePath column.2 ++ ".csv".toList, []⟩ = true := by decide
  have copies (name : Text) : "-non_crypto.csv".toList.isSuffixOf
      (name ++ "-non_crypto.csv".toList) = true :=
    List.isSuffixOf_iff_suffix.mpr (List.suffix_append _ _)
  have each (some : List (Nat × Text)) (named : ∀ column ∈ some, column ∈ csvCols)
      (groups : List (List File)) (written : some.mapM (columnFiles sha3 df) = .ok groups) :
      ∃ frames, (some.mapM fun column => (encoded (nlist df column.2)).map
            (List.map fun hex => DataFrame.mk column.1 hex)) = .ok frames ∧
        fileContents groups.flatten = frames.map (List.map (DataFrame.row sha3)) := by
    induction some generalizing groups with
    | nil =>
      obtain rfl := Except.ok.inj written
      exact ⟨[], rfl, rfl⟩
    | cons column some inductionHypothesis =>
      obtain ⟨here, others⟩ := List.forall_mem_cons.mp named
      rw [List.mapM_cons] at written
      obtain ⟨group, first, written⟩ := bind_ok written
      obtain ⟨rest, later, written⟩ := bind_ok written
      obtain rfl := Except.ok.inj written
      obtain ⟨frames, framed, contents⟩ := inductionHypothesis others rest later
      obtain ⟨rows, paid, first⟩ := bind_ok first
      obtain ⟨copy, _, first⟩ := bind_ok first
      obtain rfl := Except.ok.inj first
      rw [payloads_rows] at paid
      cases hexes : encoded (nlist df column.2) with
      | error exception =>
        rw [hexes] at paid
        cases paid
      | ok values =>
        rw [hexes] at paid
        obtain rfl := Except.ok.inj paid
        refine ⟨(values.map fun hex => ⟨column.1, hex⟩) :: frames, ?_, ?_⟩
        · rw [List.mapM_cons, hexes, framed]
          rfl
        · have own := plain column here
          simp only [hasFrames] at own
          simp only [fileContents, List.flatten_cons, List.cons_append, List.nil_append,
            List.filter_cons, hasFrames, own, copies, if_true] at contents ⊢
          simpa using contents
  obtain ⟨groups, written, rfl⟩ : ∃ groups, csvCols.mapM (columnFiles sha3 df) = .ok groups ∧
      groups.flatten = files := by
    cases written : csvCols.mapM (columnFiles sha3 df) with
    | error exception =>
      rw [extract, written] at extracted
      cases extracted
    | ok groups =>
      rw [extract, written] at extracted
      exact ⟨groups, rfl, Except.ok.inj extracted⟩
  exact each csvCols (fun _ member => member) groups written

/-- The frames of a column of the table, which all carry its identifier. -/
def ColumnFrames (df : Text → List Text) (column : Nat × Text) (frames : List DataFrame) : Prop :=
  ∃ hexes, encoded (nlist df column.2) = .ok hexes ∧
    frames = hexes.map fun hex => ⟨column.1, hex⟩

/-- The columns of a table are these, in the order of `csv_cols`. -/
theorem columns_frames (df : Text → List Text) (all : List (List DataFrame))
    (found : columns df = .ok all) : List.Forall₂ (ColumnFrames df) csvCols all := by
  refine List.Forall₂.imp ?_ ((all_succeed _ _ _).mp found)
  intro column frames finished
  cases hexes : encoded (nlist df column.2) with
  | error exception =>
    rw [hexes] at finished
    cases finished
  | ok values =>
    rw [hexes] at finished
    exact ⟨values, hexes, (Except.ok.inj finished).symm⟩

/-- They are frames of their identifier, and valid, as a value is encoded in eight
digits. -/
theorem column_frames_valid (df : Text → List Text) (column : Nat × Text)
    (frames : List DataFrame) (known : column ∈ csvCols) (found : ColumnFrames df column frames) :
    ∀ frame ∈ frames, frame.pid = column.1 ∧ frame.Valid := by
  obtain ⟨hexes, encoded, rfl⟩ := found
  obtain ⟨texts, _, all⟩ := bind_ok encoded
  intro frame member
  obtain ⟨hex, inside, rfl⟩ := List.mem_map.mp member
  obtain ⟨text, _, written⟩ := related_left ((all_succeed _ _ _).mp all) hex inside
  exact ⟨rfl, ⟨column, known, rfl⟩, value_digits text hex written⟩

/-- A warm-up of them comes first, so that no file is empty. -/
theorem column_frames_some (df : Text → List Text) (column : Nat × Text)
    (frames : List DataFrame) (found : ColumnFrames df column frames) : frames ≠ [] := by
  obtain ⟨hexes, encoded, rfl⟩ := found
  obtain ⟨values, first, last, _, firstValue, _, rfl⟩ := encoded_parts _ _ encoded
  cases values with
  | nil => cases firstValue
  | cons value values => simp

/-- A row is a frame as a log has it. The identifiers of the columns are few, and each is
looked at; the data are the digits of the value and of four bytes of the hash. -/
theorem row_frame (sha3 : Sha3) (frame : DataFrame) (valid : frame.Valid) :
    IsFrame (frame.row sha3) := by
  have identifiers : ∀ column ∈ csvCols, ofDigits 16 (pidText column.1) < 2 ^ 11 := by
    decide +kernel
  obtain ⟨length, digits⟩ := pid_text_digits frame.pid valid.pid.2
  obtain ⟨column, known, same⟩ := valid.own
  exact ⟨_, _, 8, rfl, length, digits, same ▸ identifiers column known, Nat.le_refl 8,
    frame_digits sha3 frame.pid frame.hex valid.digits⟩

/-! ## The order of the frames -/

/-- A list that is a permutation of images is the image of a permutation. -/
theorem perm_preimage {α β : Type} (image : α → β) (images : List β) (originals : List α)
    (permuted : images.Perm (originals.map image)) :
    ∃ others : List α, others.Perm originals ∧ images = others.map image := by
  induction images generalizing originals with
  | nil =>
    have none := List.map_eq_nil_iff.mp (List.nil_perm.mp permuted)
    exact ⟨[], by rw [none], rfl⟩
  | cons first images inductionHypothesis =>
    obtain ⟨original, member, rfl⟩ := List.mem_map.mp
      (permuted.subset (List.mem_cons_self (a := first)))
    obtain ⟨before, behind, rfl⟩ := List.append_of_mem member
    have middle : (before ++ original :: behind).Perm (original :: (before ++ behind)) :=
      List.perm_middle
    obtain ⟨others, same, rfl⟩ := inductionHypothesis (before ++ behind)
      ((permuted.trans (middle.map image)).cons_inv)
    exact ⟨original :: others, (same.cons original).trans middle.symm, rfl⟩

/-- The frames of a table in the order in which they arrive: of known columns, those of
each column in its order, and evenly mixed. -/
structure Arranged (df : Text → List Text) (frames : List DataFrame) : Prop where
  known : ∀ frame ∈ frames, ∃ column ∈ csvCols, frame.pid = column.1
  /-- Of each column all frames arrive, in its order. -/
  ordered : ∀ column ∈ csvCols, ∃ hexes, encoded (nlist df column.2) = .ok hexes ∧
    (frames.filter fun frame => frame.pid = column.1) = hexes.map fun hex => ⟨column.1, hex⟩
  /-- Until all have arrived, none has come more often than it, but for once. -/
  even : ∀ before rest, frames = before ++ rest → ∀ column ∈ csvCols,
    (before.filter fun frame => frame.pid = column.1).length <
        (frames.filter fun frame => frame.pid = column.1).length →
      ∀ other ∈ csvCols, (before.filter fun frame => frame.pid = other.1).length ≤
        (before.filter fun frame => frame.pid = column.1).length + 1

/-- The identifier of the frames of a column, read off the first of them. -/
def columnPid (frames : List DataFrame) : Option Nat := frames.head?.map DataFrame.pid

/-- The columns have different ones, so that the files can be told apart by them. -/
theorem column_pids (df : Text → List Text) (all : List (List DataFrame))
    (found : columns df = .ok all) : (all.map columnPid).Nodup := by
  have same : csvCols.map (fun column => some column.1) = all.map columnPid := by
    rw [← List.forall₂_eq_eq_eq, List.forall₂_map_left_iff, List.forall₂_map_right_iff]
    have each := columns_frames df all found
    have inside := (List.forall₂_and_left _ _).mpr ⟨fun column member => member, each⟩
    refine List.Forall₂.imp ?_ inside
    rintro column frames ⟨known, frame⟩
    obtain ⟨first, others, rfl⟩ := List.exists_cons_of_ne_nil
      (column_frames_some df column frames frame)
    have own := (column_frames_valid df column _ known frame first List.mem_cons_self).1
    rw [columnPid, List.head?_cons, Option.map_some, own]
  rw [← same]
  decide

section

variable {df : Text → List Text} {all others : List (List DataFrame)} {sources : List Nat}
  {frames : List DataFrame}

/-- Of columns in any order, the frames of one come from its place among them. -/
theorem frames_of_column (found : columns df = .ok all) (same : others.Perm all)
    (interleaves : Interleaves others sources frames) (column : Nat × Text)
    (known : column ∈ csvCols) :
    ∃ (index : Nat) (list : List DataFrame), others[index]? = some list ∧
      ColumnFrames df column list ∧
      List.Forall₂ (fun source frame => decide (frame.pid = column.1) = decide (source = index))
        sources frames := by
  have each := columns_frames df all found
  obtain ⟨list, member, framed⟩ := related_left each.flip column known
  obtain ⟨index, place⟩ := List.getElem?_of_mem (same.symm.subset member)
  refine ⟨index, list, place, framed, ?_⟩
  have distinct : (others.map columnPid).Nodup :=
    (same.map columnPid).nodup_iff.mpr (column_pids df all found)
  apply interleaves_related _ others sources frames interleaves
  intro other contents elsewhere frame inside
  obtain ⟨own, ownKnown, ownFrames⟩ := related_left each contents
    (same.subset (List.mem_of_getElem? elsewhere))
  have pid := (column_frames_valid df own contents ownKnown ownFrames frame inside).1
  have key (column : Nat × Text) (list : List DataFrame) (known : column ∈ csvCols)
      (framed : ColumnFrames df column list) : columnPid list = some column.1 := by
    obtain ⟨first, rest, rfl⟩ := List.exists_cons_of_ne_nil
      (column_frames_some df column list framed)
    rw [columnPid, List.head?_cons, Option.map_some,
      (column_frames_valid df column _ known framed first List.mem_cons_self).1]
  rw [pid, decide_eq_decide]
  constructor
  · intro equal
    have places : (others.map columnPid)[other]? = (others.map columnPid)[index]? := by
      rw [List.getElem?_map, List.getElem?_map, elsewhere, place, Option.map_some,
        Option.map_some, key own contents ownKnown ownFrames, key column list known framed, equal]
    have bound : other < (others.map columnPid).length := by
      rw [List.length_map]
      exact (List.getElem?_eq_some_iff.mp elsewhere).1
    exact (List.getElem?_inj bound distinct).mp places
  · rintro rfl
    obtain rfl := Option.some.inj (elsewhere.symm.trans place)
    have keys := (key own contents ownKnown ownFrames).symm.trans
      (key column contents known framed)
    exact Option.some.inj keys

/-- The columns in any order, mixed evenly, are arranged, which is what the log of
random order makes of them. -/
theorem arranged_of_interleaves (found : columns df = .ok all) (same : others.Perm all)
    (interleaves : Interleaves others sources frames)
    (even : ∀ before rest, sources = before ++ rest → ∀ (index : Nat) (list : List DataFrame),
      others[index]? = some list → before.count index < list.length → ∀ other,
        before.count other ≤ before.count index + 1) : Arranged df frames where
  known := by
    have related := interleaves_related
      (fun _ frame => ∃ column ∈ csvCols, frame.pid = column.1) others sources frames interleaves
      (by
        intro index list place frame inside
        obtain ⟨column, known, framed⟩ := related_left (columns_frames df all found) list
          (same.subset (List.mem_of_getElem? place))
        exact ⟨column, known, (column_frames_valid df column list known framed frame inside).1⟩)
    intro frame member
    obtain ⟨_, _, column⟩ := related_left related frame member
    exact column
  ordered := by
    intro column known
    obtain ⟨index, list, place, framed, tells⟩ :=
      frames_of_column found same interleaves column known
    obtain ⟨hexes, encoded, rfl⟩ := framed
    refine ⟨hexes, encoded, ?_⟩
    rw [filter_coming_from _ index sources frames tells, interleaves.whole index _ place]
  even := by
    rintro before rest rfl column known some other otherKnown
    obtain ⟨index, list, place, framed, tells⟩ :=
      frames_of_column found same interleaves column known
    obtain ⟨otherIndex, _, _, _, otherTells⟩ :=
      frames_of_column found same interleaves other otherKnown
    have length := interleaves.sourced
    have split : sources = sources.take before.length ++ sources.drop before.length :=
      (List.take_append_drop _ _).symm
    have front (index : Nat) (pid : Nat)
        (tells : List.Forall₂ (fun source (frame : DataFrame) =>
          decide (frame.pid = pid) = decide (source = index)) sources (before ++ rest)) :
        (before.filter fun frame => frame.pid = pid).length =
          (sources.take before.length).count index := by
      have taken := List.forall₂_take before.length tells
      rw [List.take_left] at taken
      rw [filter_coming_from _ index _ _ taken, coming_from_length]
      exact taken.length_eq
    rw [front index column.1 tells, filter_coming_from _ index sources _ tells,
      interleaves.whole index list place] at some
    rw [front otherIndex other.1 otherTells, front index column.1 tells]
    exact even _ _ split index list place some otherIndex

end

/-- What `candump` writes while a log of rows is sent are the lines of the frames as they
arrive. -/
theorem replayed_rows (utils : CanUtils) (sha3 : Sha3) (times : Nat → ℚ)
    (frames : List DataFrame) (valid : ∀ frame ∈ frames, frame.Valid) :
    ∃ stamp : Nat → Time, (∀ arrival, (timeText (stamp arrival)).length = 17) ∧
      utils.replay ((frames.map (DataFrame.row sha3)).mapIdx fun line row =>
          logLine (.finite false (times line)) utils.bus row) =
        (arriving sha3 stamp utils.bus frames).flatten := by
  obtain ⟨stamp, stamps, lines⟩ := utils.relays times (frames.map (DataFrame.row sha3)) (by
    intro row member
    obtain ⟨frame, inside, rfl⟩ := List.mem_map.mp member
    exact row_frame sha3 frame (valid frame inside))
  refine ⟨stamp, stamps, lines.trans (congrArg List.flatten ?_)⟩
  rw [arriving]
  apply List.ext_getElem?
  intro position
  rw [List.getElem?_mapIdx, List.getElem?_mapIdx, List.getElem?_map, Option.map_map]
  rfl

/-- The log of the files of a table is written, and the frames that arrive while it is
replayed are those of the columns. -/
theorem replayed_frames (utils : CanUtils) (sha3 : Sha3) (df : Text → List Text)
    (files listing : List File) (numbers : Nat → Nat) (extracted : extract sha3 df = .ok files)
    (listed : listing.Perm files) :
    ∃ log frames stamp, randomLog utils.bus numbers (fileContents listing) = .ok log ∧
      utils.replay log = (arriving sha3 stamp utils.bus frames).flatten ∧
      (∀ arrival, (timeText (stamp arrival)).length = 17) ∧
      (∀ frame ∈ frames, frame.Valid) ∧ Arranged df frames := by
  obtain ⟨all, found, contents⟩ := extract_columns sha3 df files extracted
  have permuted : (fileContents listing).Perm (all.map (List.map (DataFrame.row sha3))) := by
    rw [← contents]
    exact (listed.filter _).map _
  obtain ⟨others, same, images⟩ := perm_preimage _ _ _ permuted
  have column (list : List DataFrame) (member : list ∈ others) :
      ∃ column ∈ csvCols, ColumnFrames df column list :=
    related_left (columns_frames df all found) list (same.subset member)
  have full : [] ∉ fileContents listing := by
    rw [images]
    intro member
    obtain ⟨list, inside, empty⟩ := List.mem_map.mp member
    obtain ⟨_, _, framed⟩ := column list inside
    exact column_frames_some df _ list framed (List.map_eq_nil_iff.mp empty)
  obtain ⟨sources, lines, printed, interleaves, balanced⟩ :=
    random_loop_exact utils.bus numbers (.initial (fileContents listing)) [] (initial_even _)
      (initial_left _ full)
  obtain ⟨frames, interleaved, rows⟩ := interleaves_preimage (fileContents listing)
    (DataFrame.row sha3) others sources lines images interleaves
  have valid : ∀ frame ∈ frames, frame.Valid := by
    have related := interleaves_related (fun _ frame => frame.Valid) others sources frames
      interleaved (by
        intro index list place frame inside
        obtain ⟨own, known, framed⟩ := column list (List.mem_of_getElem? place)
        exact (column_frames_valid df own list known framed frame inside).2)
    intro frame member
    obtain ⟨_, _, valid⟩ := related_left related frame member
    exact valid
  obtain ⟨stamp, stamps, arrived⟩ :=
    replayed_rows utils sha3 (fun line => tick^[line] 0) frames valid
  refine ⟨_, frames, stamp, printed, ?_, stamps, valid, ?_⟩
  · rw [rows]
    exact arrived
  · apply arranged_of_interleaves found same interleaved
    intro before rest split index list place some other
    have image : (Shuffle.initial (fileContents listing)).fileContents[index]? =
        Option.some (list.map (DataFrame.row sha3)) := by
      change (fileContents listing)[index]? = _
      rw [images, List.getElem?_map, place]
      rfl
    exact balanced before rest split index _ image (by rwa [List.length_map]) other

section

variable {F : Type} [Arithmetic F]

/-- The mail of a frame is one of its channel, and of no other channel of the table. -/
theorem mail_channel (frame : DataFrame) (column : Nat × Text) (known : column ∈ csvCols)
    (own : ∃ column ∈ csvCols, frame.pid = column.1) :
    (frame.mail : Mail F).channel = CanData.ofCode column.1 ↔ frame.pid = column.1 := by
  obtain ⟨other, otherKnown, pid⟩ := own
  have codes : ∀ first ∈ csvCols, ∀ second ∈ csvCols,
      CanData.ofCode ((first.1 : Int) % 256).toNat = CanData.ofCode second.1 ↔
        first.1 = second.1 := by decide
  rw [DataFrame.mail, safety_mail_channel, pid]
  exact codes other otherKnown column known

variable [LogHeader]

/-- Whatever order the files are listed in and the lines are chosen in, the log of a
table is written. While it is replayed on a bus with a short name, by programs that lose
no frame, and OpenSSL fails in no call, the broker sends nothing but safety mails of the
five channels; and those of each channel carry the values of its column, all of them and
in order.

Proof: the frames arrive in the order of the log, in which the files are interleaved;
each is taken as one message and accepted, and of its mail the value and the channel are
read off. -/
theorem replay_delivers (utils : CanUtils) (sha3 : Sha3) (df : Text → List Text)
    (files listing : List File) (numbers : Nat → Nat) (extracted : extract sha3 df = .ok files)
    (listed : listing.Perm files) (short : utils.bus.name.length ≤ 6) :
    ∃ (log : List Text) (sent : List (Mail F)),
      randomLog utils.bus numbers (fileContents listing) = .ok log ∧
      sentMails sha3 (fun _ => .succeed) (utils.replay log) = sent ∧
      (∀ mail ∈ sent, mail.type = mtSafety ∧
        ∃ column ∈ csvCols, mail.channel = CanData.ofCode column.1) ∧
      ∀ column ∈ csvCols, ∃ hexes, encoded (nlist df column.2) = .ok hexes ∧
        (sent.filter fun mail => mail.channel = CanData.ofCode column.1) =
          hexes.map fun hex => safetyMail column.1 (hexGetFloat hex) := by
  obtain ⟨log, frames, stamp, printed, arrived, stamps, valid, arranged⟩ :=
    replayed_frames utils sha3 df files listing numbers extracted listed
  refine ⟨log, frames.map DataFrame.mail, printed, ?_, ?_, ?_⟩
  · rw [arrived]
    exact arriving_mails sha3 stamp utils.bus frames valid stamps short
  · intro mail member
    obtain ⟨frame, inside, rfl⟩ := List.mem_map.mp member
    obtain ⟨column, known, pid⟩ := arranged.known frame inside
    exact ⟨rfl, column, known,
      (mail_channel frame column known ⟨column, known, pid⟩).mpr pid⟩
  · intro column known
    obtain ⟨hexes, encoded, ordered⟩ := arranged.ordered column known
    refine ⟨hexes, encoded, ?_⟩
    have same : ∀ frame ∈ frames, decide ((frame.mail : Mail F).channel =
        CanData.ofCode column.1) = decide (frame.pid = column.1) := by
      intro frame inside
      rw [decide_eq_decide]
      exact mail_channel frame column known (arranged.known frame inside)
    have selected := List.filter_congr same
    rw [ordered] at selected
    rw [List.filter_map]
    exact (congrArg (List.map DataFrame.mail) selected).trans (List.map_map ..)

end

/-- A table whose columns are encoded is extracted, as nothing else can raise an
exception. -/
theorem extract_of_encoded (sha3 : Sha3) (df : Text → List Text)
    (each : ∀ column ∈ csvCols, ∃ hexes, encoded (nlist df column.2) = .ok hexes) :
    ∃ files, extract sha3 df = .ok files := by
  have written : ∀ column ∈ csvCols, ∃ group, columnFiles sha3 df column = .ok group := by
    intro column known
    obtain ⟨hexes, finished⟩ := each column known
    obtain ⟨texts, padding, _⟩ := bind_ok finished
    have written : columnFiles sha3 df column =
        .ok [⟨canonicalizePath column.2 ++ ".csv".toList,
            hexes.map fun hex => DataFrame.row sha3 ⟨column.1, hex⟩⟩,
          ⟨canonicalizePath column.2 ++ "-non_crypto.csv".toList, texts⟩] := by
      rw [columnFiles, payloads_rows, finished, padding]
      rfl
    exact ⟨_, written⟩
  obtain ⟨groups, all⟩ := all_exist (columnFiles sha3 df) csvCols written
  exact ⟨groups.flatten, by rw [extract, all]; rfl⟩

/-- The frame at the end of a line of a log, behind the last blank. -/
def frameText (line : Text) : Text := (line.reverse.takeWhile (· ≠ ' ')).reverse

/-- The frame of a line of a log, whatever its time and its bus. -/
theorem frame_text_line (time : Time) (can : Interface) (row : Text) (plain : ' ' ∉ row) :
    frameText (logLine time can row) = row := by
  have whole : ∀ c ∈ row.reverse, decide (c ≠ ' ') = true := by
    intro c member
    have other : c ≠ ' ' := by
      rintro rfl
      exact plain (List.mem_reverse.mp member)
    simpa using other
  have shape : (logLine time can row).reverse = row.reverse ++
      ' ' :: ("(".toList ++ timeText time ++ ") ".toList ++ can.name).reverse := by
    simp [logLine]
  rw [frameText, shape, List.takeWhile_append_of_pos whole]
  simp

/-- A frame has no blank that it could be cut at. -/
theorem frame_plain (row : Text) (frame : IsFrame row) : ' ' ∉ row := by
  obtain ⟨identifier, data, bytes, rfl, _, digits, _, _, _, hexDigits⟩ := frame.parts
  have hexPlain : ∀ c ∈ "0123456789abcdef".toList, c ≠ ' ' :=
    List.all_iff_forall_prop.mp (by decide)
  intro member
  rcases List.mem_append.mp member with inside | rest
  · cases digits _ inside
  · rcases List.mem_cons.mp rest with mark | inside
    · cases mark
    · exact hexPlain _ (hexDigits _ inside) rfl

/-- Programs that read the frame behind the last blank of each line and write each as if it
had arrived at once. -/
def plainUtils : CanUtils where
  bus := vcan0
  replay log := (log.map fun line =>
    logLine (.finite false 0) vcan0 (reemitted (frameText line)) ++ ['\n']).flatten
  relays times rows frames := by
    have width : (timeText (.finite false 0)).length = 17 := by decide +kernel
    refine ⟨fun _ => .finite false 0, fun _ => width, congrArg List.flatten ?_⟩
    apply List.ext_getElem?
    intro position
    rw [List.getElem?_map, List.getElem?_mapIdx, List.getElem?_mapIdx]
    cases found : rows[position]? with
    | none => rfl
    | some row =>
      have plain := frame_plain row (frames row (List.mem_of_getElem? found))
      simp only [Option.map_some, frame_text_line _ vcan0 row plain]

/-- A table of zeros is delivered, by programs that replay it as it is. -/
theorem zeros_delivered : ∃ files, extract zeroSha3 (fun _ => ["0".toList]) = .ok files ∧
    ∃ (log : List Text) (sent : List (Mail ℚ)),
      randomLog vcan0 id (fileContents files) = .ok log ∧
      sentMails zeroSha3 (fun _ => .succeed) (plainUtils.replay log) = sent ∧
      (∀ mail ∈ sent, mail.type = mtSafety ∧
        ∃ column ∈ csvCols, mail.channel = CanData.ofCode column.1) ∧
      ∀ column ∈ csvCols, ∃ hexes, encoded (nlist (fun _ => ["0".toList]) column.2) = .ok hexes ∧
        (sent.filter fun mail => mail.channel = CanData.ofCode column.1) =
          hexes.map fun hex => safetyMail column.1 (hexGetFloat hex) := by
  have cells (column : Nat × Text) :
      nlist (fun _ => ["0".toList]) column.2 = ["0".toList] := rfl
  have single : ["0".toList].mapM toHexString = .ok ["00000000".toList] := by decide +kernel
  obtain ⟨files, extracted⟩ := extract_of_encoded zeroSha3 (fun _ => ["0".toList]) (by
    intro column _
    rw [cells]
    exact ⟨_, encoded_of_parts _ _ _ _ single rfl rfl⟩)
  exact ⟨files, extracted, replay_delivers plainUtils zeroSha3 _ files files id extracted
    (List.Perm.refl files) (by decide)⟩

end EventRecorder.Replay
