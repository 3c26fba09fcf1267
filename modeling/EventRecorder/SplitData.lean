import EventRecorder.CInput
import Mathlib.Data.List.Chain

/-!
# Splitting a data set at its blank rows

`split_data` copies the rows of a CSV file into numbered files and begins a new one
at every blank row. Each file starts with the header row and is named after the
first cell of the row that comes next. At the end the last file is removed if
reading it returns nothing, which it always does right after it was written.

A row is the list of cells that `csv.reader` yields. Whether a file can be created
depends on its name; a cell that holds a slash names a directory that is not there.
-/

namespace EventRecorder.SplitData

open CText

/-- The cells of a row, as `csv.reader` yields them. -/
abbrev Row := List Text

/-- `not any (row)`: all cells are empty, or there are none. -/
def blank (row : Row) : Bool := row.all (· = [])

/-- The exceptions that end `split_data`, by their class. -/
inductive Exception where
  | indexError
  | osError
  | unboundLocalError
  deriving DecidableEq

/-- An output file: its name and the rows written to it so far. -/
structure OutputFile where
  name : Text
  rows : List Row
  deriving DecidableEq

/-- `generator_counter`, the files that have been closed, in order, and `outputfile`. -/
structure Output where
  counter : Nat
  closed : List OutputFile
  outputfile : OutputFile

/-- All files of an output, in order, the one that is still open last. -/
def Output.files (out : Output) : List OutputFile := out.closed ++ [out.outputfile]

/-- The parts of the output path around the counter and the cell, and which names can
be created. -/
structure Target where
  stem : Text
  suffix : Text
  creates : Text → Bool

/-- The name of an output file, from the name of the source file, a number of three
digits and a cell. -/
def Target.outputName (target : Target) (counter : Nat) (cell : Text) : Text :=
  target.stem ++ '-' :: (zeroPadded 3 counter ++ '-' :: (cell ++ target.suffix))

/-- `generate_outputfiles`, the counter being the number of the new file. -/
def generateOutputfiles (target : Target) (counter : Nat) (cell : Text) :
    Except Exception OutputFile :=
  if target.creates (target.outputName counter cell) then
    .ok ⟨target.outputName counter cell, []⟩
  else .error .osError

/-- `row[0]`, which a row without cells does not have. -/
def firstCell (row : Row) : Except Exception Text :=
  match row with
  | [] => .error .indexError
  | cell :: _ => .ok cell

/-- `writer.writerow (row)`, into the file that is open. -/
def Output.writerow (out : Output) (row : Row) : Output :=
  { out with outputfile := ⟨out.outputfile.name, out.outputfile.rows ++ [row]⟩ }

/-- The loop over the rows that are left. Behind the last row, the header gives the
cell. An exception finds the file closed, so the name `data` has no value when the
`finally` block looks at it. -/
def splitRows (target : Target) (header : Row) : List Row → Output → Except Exception Output
  | [], out => .ok out
  | row :: rest, out =>
    if blank row then
      let opened := do
        let cell ← firstCell (rest.headD header)
        generateOutputfiles target (out.counter + 1) cell
      match opened with
      | .error _ => .error .unboundLocalError
      | .ok file =>
        splitRows target header rest
          (Output.writerow ⟨out.counter + 1, out.files, file⟩ header)
    else splitRows target header rest (out.writerow row)

/-- `outputfile.read ()` behind the last write, where the position is at the end of the
file. -/
def readBack (_file : OutputFile) : Text := []

/-- The `finally` block: the files that are left after the last one was looked at. -/
def finish (out : Output) : List OutputFile :=
  let data := readBack out.outputfile
  if data.length = 0 then out.closed else out.files

/-- `split_data` on the rows of its input: the files that are left, or the exception
that ended it. -/
def splitData (target : Target) (counter : Nat) (reader : List Row) :
    Except Exception (List OutputFile) :=
  match reader with
  | header :: second :: rest => do
    let cell ← firstCell second
    let outputfile ← generateOutputfiles target (counter + 1) cell
    let out ← splitRows target header (header :: second :: rest) ⟨counter + 1, [], outputfile⟩
    .ok (finish out)
  | _ => .error .indexError

/-- The data rows between blank rows; behind a blank last row there are none. -/
def pieces (rows : List Row) : List (List Row) := rows.splitOnP blank

/-- The maximal blocks of data rows, which is what the files should hold. -/
def blocks (rows : List Row) : List (List Row) := (pieces rows).filter (· ≠ [])

/-! ## The pieces of a data set -/

/-- There is a first piece, of no rows if the first row is blank. -/
theorem pieces_some (rows : List Row) : ∃ first later, pieces rows = first :: later :=
  List.exists_cons_of_ne_nil (List.splitOnP_ne_nil blank rows)

/-- No rows are one piece of none. -/
@[simp] theorem pieces_nil : pieces [] = [[]] := List.splitOnP_nil

/-- A blank row ends an empty first piece, and the pieces behind it follow. -/
theorem pieces_blank (row : Row) (rest : List Row) (separates : blank row = true) :
    pieces (row :: rest) = [] :: pieces rest := by
  rw [pieces, List.splitOnP_cons_eq_if_modifyHead, if_pos separates, pieces]

/-- A data row is the first of the piece that the rest begins with. -/
theorem pieces_data (row : Row) (rest first : List Row) (later : List (List Row))
    (full : blank row = false) (split : pieces rest = first :: later) :
    pieces (row :: rest) = (row :: first) :: later := by
  rw [pieces] at split
  rw [pieces, List.splitOnP_cons_eq_if_modifyHead, if_neg (by simp [full]), split,
    List.modifyHead_cons]

/-- Of two rows that follow each other, one is not blank. -/
def SingleBlanks (rows : List Row) : Prop :=
  rows.IsChain fun row next => blank row = false ∨ blank next = false

/-- A blank row is followed by a row that is not, or by none. -/
theorem data_behind_blank (row : Row) (rest : List Row) (separates : blank row = true)
    (single : SingleBlanks (row :: rest)) : ∀ next ∈ rest.head?, blank next = false := by
  intro next head
  have either := (List.isChain_cons.mp single).1 next head
  simpa [separates] using either

/-- The only piece of some rows is not empty, as there is no blank row among them. -/
theorem only_piece (row : Row) (rest first : List Row) (split : pieces (row :: rest) = [first]) :
    first ≠ [] := by
  obtain ⟨next, later, splitRest⟩ := pieces_some rest
  cases full : blank row with
  | true =>
    rw [pieces_blank row rest full, splitRest] at split
    exact absurd (List.cons.inj split).2 (List.cons_ne_nil _ _)
  | false =>
    rw [pieces_data row rest next later full splitRest] at split
    rw [← (List.cons.inj split).1]
    exact List.cons_ne_nil _ _

/-- The last piece is empty exactly if the last row is blank. -/
theorem last_piece (rows : List Row) :
    (pieces rows).getLast? = some [] ↔ ∀ row ∈ rows.getLast?, blank row = true := by
  induction rows with
  | nil => simp
  | cons row rest inductionHypothesis =>
    obtain ⟨first, later, split⟩ := pieces_some rest
    have fromRest : rest ≠ [] → (row :: rest).getLast? = rest.getLast? := by
      intro some
      obtain ⟨next, others, rfl⟩ := List.exists_cons_of_ne_nil some
      exact List.getLast?_cons_cons
    cases full : blank row with
    | true =>
      rw [pieces_blank row rest full, split, List.getLast?_cons_cons, ← split,
        inductionHypothesis]
      by_cases none : rest = []
      · simp [none, full]
      · rw [fromRest none]
    | false =>
      rw [pieces_data row rest first later full split]
      cases rest with
      | nil =>
        rw [pieces_nil] at split
        obtain ⟨rfl, rfl⟩ := List.cons.inj split
        simp [full]
      | cons next others =>
        rw [fromRest (List.cons_ne_nil _ _), ← inductionHypothesis, split]
        cases later with
        | nil => simp [only_piece next others first split]
        | cons piece pieces => rw [List.getLast?_cons_cons, List.getLast?_cons_cons]

/-- Pieces between the first and the last are not empty, because blank rows are single. -/
theorem middle_pieces (rows : List Row) (single : SingleBlanks rows) :
    ∀ piece ∈ (pieces rows).tail.dropLast, piece ≠ [] := by
  induction rows with
  | nil => simp
  | cons row rest inductionHypothesis =>
    have singleRest := (List.isChain_cons.mp single).2
    obtain ⟨first, later, split⟩ := pieces_some rest
    cases full : blank row with
    | false =>
      rw [pieces_data row rest first later full split]
      have inRest := inductionHypothesis singleRest
      rwa [split] at inRest
    | true =>
      rw [pieces_blank row rest full, List.tail_cons]
      cases rest with
      | nil => simp
      | cons next others =>
        have data := data_behind_blank row _ full single next rfl
        obtain ⟨second, rest, splitOthers⟩ := pieces_some others
        have inRest := inductionHypothesis singleRest
        rw [pieces_data next others second rest data splitOthers] at inRest ⊢
        intro piece member
        cases rest with
        | nil => simp at member
        | cons third fourth =>
          rw [List.dropLast_cons_cons, List.mem_cons] at member
          rcases member with rfl | behind
          · exact List.cons_ne_nil _ _
          · exact inRest piece behind

/-- Behind data in front, only the last piece can be empty. -/
theorem earlier_pieces (row : Row) (rest : List Row) (data : blank row = false)
    (single : SingleBlanks (row :: rest)) :
    ∀ piece ∈ (pieces (row :: rest)).dropLast, piece ≠ [] := by
  have middle := middle_pieces _ single
  obtain ⟨first, later, split⟩ := pieces_some rest
  rw [pieces_data row rest first later data split] at middle ⊢
  cases later with
  | nil => simp
  | cons second others =>
    rw [List.dropLast_cons_cons, List.forall_mem_cons]
    exact ⟨List.cons_ne_nil _ _, middle⟩

/-- Of rows that begin with data, the pieces but the last are the blocks exactly if
the last row is blank. -/
theorem dropped_pieces_iff (row : Row) (rest : List Row) (data : blank row = false)
    (single : SingleBlanks (row :: rest)) :
    (pieces (row :: rest)).dropLast = blocks (row :: rest) ↔
      ∀ last ∈ (row :: rest).getLast?, blank last = true := by
  have some : pieces (row :: rest) ≠ [] := List.splitOnP_ne_nil blank _
  have whole := List.dropLast_append_getLast some
  have earlier : (pieces (row :: rest)).dropLast.filter (· ≠ []) =
      (pieces (row :: rest)).dropLast := by
    rw [List.filter_eq_self]
    intro piece member
    exact decide_eq_true (earlier_pieces row rest data single piece member)
  have kept : blocks (row :: rest) = (pieces (row :: rest)).dropLast ++
      [(pieces (row :: rest)).getLast some].filter (· ≠ []) := by
    rw [blocks, ← earlier, ← List.filter_append, whole]
  rw [kept, ← last_piece, List.getLast?_eq_some_getLast some, Option.some_inj,
    List.self_eq_append_right]
  simp

/-! ## The files -/

variable (target : Target) (header : Row)

/-- The cell a file of a piece is named after: that of its first row, or of the header
if it has none. -/
def title (piece : List Row) : Text := (piece.headD header).headD []

/-- The files of pieces, numbered from a counter, each with the header and named after
its first cell. -/
def filesOf : Nat → List (List Row) → List OutputFile
  | _, [] => []
  | counter, piece :: rest =>
    ⟨target.outputName counter (title header piece), header :: piece⟩ :: filesOf (counter + 1) rest

/-- All of some files can be created, by their names. -/
def Creatable (files : List OutputFile) : Prop := ∀ file ∈ files, target.creates file.name = true

/-- A row that is not blank has a first cell. -/
theorem first_cell_data (row : Row) (data : blank row = false) :
    firstCell row = .ok (row.headD []) := by
  cases row with
  | nil => simp [blank] at data
  | cons cell rest => rfl

/-- Behind a blank row, the cell looked at is that of the next piece, or of the header
if there is none. -/
theorem first_cell_next (rest first : List Row) (later : List (List Row))
    (full : blank header = false) (data : ∀ next ∈ rest.head?, blank next = false)
    (split : pieces rest = first :: later) :
    firstCell (rest.headD header) = .ok (title header first) := by
  cases rest with
  | nil =>
    rw [pieces_nil] at split
    obtain ⟨rfl, rfl⟩ := List.cons.inj split
    exact first_cell_data header full
  | cons next others =>
    obtain ⟨second, behind, splitOthers⟩ := pieces_some others
    rw [pieces_data next others second behind (data next rfl) splitOthers] at split
    rw [← (List.cons.inj split).1]
    exact first_cell_data next (data next rfl)

/-- A blank row closes the file and opens that of the next piece, if it can be created. -/
theorem split_rows_blank (row : Row) (rest first : List Row) (later : List (List Row))
    (out : Output) (full : blank header = false) (separates : blank row = true)
    (single : SingleBlanks (row :: rest)) (split : pieces rest = first :: later) :
    splitRows target header (row :: rest) out =
      if target.creates (target.outputName (out.counter + 1) (title header first)) then
        splitRows target header rest
          ⟨out.counter + 1, out.files,
            ⟨target.outputName (out.counter + 1) (title header first), [header]⟩⟩
      else .error .unboundLocalError := by
  have cell := first_cell_next header rest first later full
    (data_behind_blank row rest separates single) split
  have opened : (do
      let cell ← firstCell (rest.headD header)
      generateOutputfiles target (out.counter + 1) cell) =
      generateOutputfiles target (out.counter + 1) (title header first) := by
    rw [cell]
    rfl
  rw [splitRows, if_pos separates, opened, generateOutputfiles]
  split_ifs <;> rfl

/-- The loop writes the first piece to the open file and gives each later piece a file
of its own. -/
theorem split_rows_ok (rows : List Row) (full : blank header = false)
    (single : SingleBlanks rows) (out : Output) (first : List Row) (later : List (List Row))
    (split : pieces rows = first :: later)
    (creatable : Creatable target (filesOf target header (out.counter + 1) later)) :
    ∃ after, splitRows target header rows out = .ok after ∧
      after.files = out.closed ++ ⟨out.outputfile.name, out.outputfile.rows ++ first⟩ ::
        filesOf target header (out.counter + 1) later := by
  induction rows generalizing out first later with
  | nil =>
    rw [pieces_nil] at split
    obtain ⟨rfl, rfl⟩ := List.cons.inj split
    exact ⟨out, rfl, by simp [Output.files, filesOf]⟩
  | cons row rest inductionHypothesis =>
    have singleRest := (List.isChain_cons.mp single).2
    obtain ⟨second, behind, splitRest⟩ := pieces_some rest
    cases separates : blank row with
    | false =>
      rw [pieces_data row rest second behind separates splitRest] at split
      obtain ⟨rfl, rfl⟩ := List.cons.inj split
      obtain ⟨after, ran, files⟩ :=
        inductionHypothesis singleRest (out.writerow row) second behind splitRest creatable
      refine ⟨after, ?_, ?_⟩
      · simpa [splitRows, separates] using ran
      · simpa [Output.writerow] using files
    | true =>
      rw [pieces_blank row rest separates, splitRest] at split
      obtain ⟨rfl, rfl⟩ := List.cons.inj split
      obtain ⟨created, others⟩ := List.forall_mem_cons.mp creatable
      obtain ⟨after, ran, files⟩ := inductionHypothesis singleRest
        ⟨out.counter + 1, out.files,
          ⟨target.outputName (out.counter + 1) (title header second), [header]⟩⟩
        second behind splitRest others
      refine ⟨after, ?_, ?_⟩
      · rw [split_rows_blank target header row rest second behind out full separates single
          splitRest, if_pos created]
        exact ran
      · simpa [Output.files, filesOf] using files

/-- Where a file cannot be created, the loop ends with an exception, whatever came
before. -/
theorem split_rows_error (rows : List Row) (full : blank header = false)
    (single : SingleBlanks rows) (out : Output) (first : List Row) (later : List (List Row))
    (split : pieces rows = first :: later)
    (missing : ¬ Creatable target (filesOf target header (out.counter + 1) later)) :
    splitRows target header rows out = .error .unboundLocalError := by
  induction rows generalizing out first later with
  | nil =>
    rw [pieces_nil] at split
    obtain ⟨rfl, rfl⟩ := List.cons.inj split
    exact absurd (List.forall_mem_nil _) missing
  | cons row rest inductionHypothesis =>
    have singleRest := (List.isChain_cons.mp single).2
    obtain ⟨second, behind, splitRest⟩ := pieces_some rest
    cases separates : blank row with
    | false =>
      rw [pieces_data row rest second behind separates splitRest] at split
      obtain ⟨rfl, rfl⟩ := List.cons.inj split
      rw [splitRows, if_neg (by simp [separates])]
      exact inductionHypothesis singleRest (out.writerow row) second behind splitRest missing
    | true =>
      rw [pieces_blank row rest separates, splitRest] at split
      obtain ⟨rfl, rfl⟩ := List.cons.inj split
      rw [split_rows_blank target header row rest second behind out full separates single
        splitRest]
      split_ifs with created
      · apply inductionHypothesis singleRest _ second behind splitRest
        intro others
        exact missing (List.forall_mem_cons.mpr ⟨created, others⟩)
      · rfl

/-- A data set: a header row, a data row behind it, and blank rows one at a time. -/
structure DataSet where
  header : Row
  first : Row
  rest : List Row
  header_full : blank header = false
  first_full : blank first = false
  single : SingleBlanks (first :: rest)

/-- The rows behind the header, of which the first is data. -/
def DataSet.rows (set : DataSet) : List Row := set.first :: set.rest

/-- The rows that `csv.reader` yields, with the header in front. -/
def DataSet.reader (set : DataSet) : List Row := set.header :: set.rows

/-- The file of each piece, and of nothing behind a blank last row. -/
def DataSet.files (set : DataSet) (target : Target) (counter : Nat) : List OutputFile :=
  filesOf target set.header (counter + 1) (pieces set.rows)

/-- `split_data` ends without an exception, and leaves one file for each block of data
rows, in order: the header and the rows of the block. -/
def LosesNothing (target : Target) (counter : Nat) (set : DataSet) : Prop :=
  ∃ files, splitData target counter set.reader = .ok files ∧
    files.map OutputFile.rows = (blocks set.rows).map (set.header :: ·)

/-- What is left is what was written without the last file, since reading behind the
last write returns nothing. -/
theorem finish_eq (out : Output) : finish out = out.files.dropLast := by
  simp [finish, readBack, Output.files]

/-- The first file is opened, and the loop goes through all rows from the header on. -/
theorem split_data_eq (counter : Nat) (set : DataSet) :
    splitData target counter set.reader =
      if target.creates (target.outputName (counter + 1) (set.first.headD [])) then
        (splitRows target set.header set.reader
          ⟨counter + 1, [], ⟨target.outputName (counter + 1) (set.first.headD []), []⟩⟩).map finish
      else .error .osError := by
  have cell := first_cell_data set.first set.first_full
  split_ifs with created
  · have opened : generateOutputfiles target (counter + 1) (set.first.headD []) =
        .ok ⟨target.outputName (counter + 1) (set.first.headD []), []⟩ := if_pos created
    simp only [splitData, DataSet.reader, DataSet.rows, bind, Except.bind, cell, opened]
    rfl
  · have refused : generateOutputfiles target (counter + 1) (set.first.headD []) =
        .error .osError := if_neg created
    simp only [splitData, DataSet.reader, DataSet.rows, bind, Except.bind, cell, refused]

/-- The files of a data set are those of its first piece and of the later ones. -/
theorem files_eq (counter : Nat) (set : DataSet) (piece : List Row) (later : List (List Row))
    (split : pieces set.rest = piece :: later) :
    set.files target counter =
      ⟨target.outputName (counter + 1) (set.first.headD []),
        set.header :: set.first :: piece⟩ :: filesOf target set.header (counter + 2) later := by
  rw [DataSet.files, DataSet.rows, pieces_data set.first set.rest piece later set.first_full split]
  rfl

/-- All rows of a data set, the header included, in pieces, of which the header begins
the first. -/
theorem reader_pieces (set : DataSet) (piece : List Row) (later : List (List Row))
    (split : pieces set.rest = piece :: later) :
    pieces set.reader = (set.header :: set.first :: piece) :: later ∧ SingleBlanks set.reader :=
  ⟨pieces_data _ _ _ _ set.header_full (pieces_data _ _ _ _ set.first_full split),
    List.isChain_cons.mpr ⟨fun _ _ => .inl set.header_full, set.single⟩⟩

/-- Where all files can be created, `split_data` leaves all but the last. -/
theorem split_data_ok (counter : Nat) (set : DataSet)
    (creatable : Creatable target (set.files target counter)) :
    splitData target counter set.reader = .ok (set.files target counter).dropLast := by
  obtain ⟨piece, later, split⟩ := pieces_some set.rest
  obtain ⟨reader, single⟩ := reader_pieces set piece later split
  rw [files_eq target counter set piece later split] at creatable ⊢
  obtain ⟨created, others⟩ := List.forall_mem_cons.mp creatable
  obtain ⟨out, ran, files⟩ := split_rows_ok target set.header set.reader set.header_full single
    ⟨counter + 1, [], ⟨target.outputName (counter + 1) (set.first.headD []), []⟩⟩ _ later
    reader others
  rw [split_data_eq, if_pos created, ran, Except.map, finish_eq, files]
  rfl

/-- Where one cannot, it ends with an exception, and nothing is promised of the files. -/
theorem split_data_error (counter : Nat) (set : DataSet)
    (missing : ¬ Creatable target (set.files target counter)) :
    ∃ exception, splitData target counter set.reader = .error exception := by
  obtain ⟨piece, later, split⟩ := pieces_some set.rest
  obtain ⟨reader, single⟩ := reader_pieces set piece later split
  rw [files_eq target counter set piece later split] at missing
  rw [split_data_eq]
  split_ifs with created
  · have others : ¬ Creatable target (filesOf target set.header (counter + 2) later) :=
      fun others => missing (List.forall_mem_cons.mpr ⟨created, others⟩)
    rw [split_rows_error target set.header set.reader set.header_full single _ _ later reader
      others]
    exact ⟨_, rfl⟩
  · exact ⟨_, rfl⟩

/-- The files hold the pieces, each behind the header. -/
theorem files_of_rows (counter : Nat) (list : List (List Row)) :
    (filesOf target header counter list).map OutputFile.rows = list.map (header :: ·) := by
  induction list generalizing counter with
  | nil => rfl
  | cons piece rest inductionHypothesis =>
    rw [filesOf, List.map_cons, List.map_cons, inductionHypothesis]

/-- Nothing is lost exactly if the last row is blank and every file can be created.

Proof: the files that are left are those of all pieces but the last. These are the
blocks if the last piece is empty, and otherwise there is one fewer. -/
theorem loses_nothing_iff (counter : Nat) (set : DataSet) :
    LosesNothing target counter set ↔
      (∀ row ∈ set.rows.getLast?, blank row = true) ∧
        Creatable target (set.files target counter) := by
  by_cases creatable : Creatable target (set.files target counter)
  · have injective : Function.Injective fun piece : List Row => set.header :: piece :=
      fun _ _ same => (List.cons.inj same).2
    have left : (set.files target counter).dropLast.map OutputFile.rows =
        (pieces set.rows).dropLast.map (set.header :: ·) := by
      rw [List.map_dropLast, DataSet.files, files_of_rows, ← List.map_dropLast]
    rw [LosesNothing, split_data_ok target counter set creatable]
    simp only [Except.ok.injEq, exists_eq_left', left, creatable, and_true]
    rw [(List.map_injective_iff.mpr injective).eq_iff]
    exact dropped_pieces_iff set.first set.rest set.first_full set.single
  · obtain ⟨exception, ended⟩ := split_data_error target counter set creatable
    rw [LosesNothing, ended]
    simp [creatable]

/-- A header and one data row, with no blank row behind it. -/
def oneRow : DataSet where
  header := ["time".toList, "speed".toList]
  first := ["1".toList, "20".toList]
  rest := []
  header_full := by decide
  first_full := by decide
  single := List.isChain_singleton _

/-- Without a blank row at the end, the last block is removed, here the only one. -/
theorem last_block_lost :
    ¬ LosesNothing ⟨"raw".toList, ".csv".toList, fun _ => true⟩ 0 oneRow := by
  rintro ⟨files, ran, rows⟩
  have nothing : splitData ⟨"raw".toList, ".csv".toList, fun _ => true⟩ 0 oneRow.reader = .ok [] :=
    rfl
  rw [nothing] at ran
  rw [← Except.ok.inj ran] at rows
  revert rows
  decide +kernel

end EventRecorder.SplitData
