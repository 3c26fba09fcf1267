import EventRecorder.FloatText
import EventRecorder.GeneratedFrames

/-!
# The columns of a table

`extractor.py` writes one file of payloads for each of five columns of a table. In
front of the cells of a column it puts as many copies of the first one as a warm-up
takes, and behind them copies of the last. The copies were read as floats and are
written again before they are encoded, and still the frames of the warm-up carry what
the first cell does: the two directions are inverse.

A cell that is missing is a `nan` in the table, as is one with that text.
-/

namespace EventRecorder.Columns

open CText Binary64 Python FloatText Extractor GeneratedFrames Sha FrameAuthentication

/-- `csv_cols`: the columns, by their numbers in the frame identifiers, and the names
they have in the table. -/
def csvCols : List (Nat × Text) :=
  [(2, "gas_pedal_position".toList), (3, "brake_on_off".toList),
    (5, "speed_vehicle_composite".toList), (6, "longitudinal_accel".toList),
    (7, "lateral_accel".toList)]

/-- `warm_up_time`: `math.ceil (20 / 0.1)`, where the quotient is the double nearest to
that of 20 and the double next to a tenth. -/
def warmUpTime : Nat := ⌈nearest (20 / nearest (1 / 10))⌉.toNat

/-- `cool_down_time`: `math.ceil (20 / 0.1)`, the same as the warm-up. -/
def coolDownTime : Nat := ⌈nearest (20 / nearest (1 / 10))⌉.toNat

/-- The tenth of a second is a float, and the quotient is still a whole number. -/
theorem warm_up_time : warmUpTime = 200 := by decide +kernel

/-- A cell with points for its commas, which are how the tables write decimals. -/
def pointedCell (cell : Text) : Text := cell.map fun c => if c = ',' then '.' else c

/-- `nlist`, the cells of a column of the table, with points for their commas. -/
def nlist (df : Text → List Text) (cols : Text) : List Text := (df cols).map pointedCell

/-- `0.0 if cell == '.' else float (cell)`. The tables write a point alone where a value
is missing. -/
def element (cell : Text) : Except Exception Double :=
  if cell = ".".toList then .ok (.finite 0) else float cell

/-- `nlist[0]` or `nlist[-1]`, either of which an empty column does not have. -/
def cellAt (cell : Option Text) : Except Exception Text :=
  match cell with
  | some cell => .ok cell
  | none => .error .indexError

/-- The texts of `n[cols]`: the cells with the warm-up and the cool-down, for which the
first and the last of them are read as floats and written again. -/
def padded (cells : List Text) : Except Exception (List Text) := do
  let firstElem ← cellAt cells.head? >>= element
  let lastElem ← cellAt cells.getLast? >>= element
  return List.replicate warmUpTime (strOf firstElem) ++ cells ++
    List.replicate coolDownTime (strOf lastElem)

/-- The column `payload` for a column of the table, each of whose texts is encoded and
authenticated by itself. The first that fails ends it. -/
def payloads (sha3 : Sha3) (pid : Nat) (cells : List Text) : Except Exception (List Text) := do
  let texts ← padded cells
  texts.mapM (payload sha3 pid)

/-- The values the texts of a column are encoded as, in digits, without the
authentication that `payload` adds. -/
def encoded (cells : List Text) : Except Exception (List Text) := do
  let texts ← padded cells
  texts.mapM toHexString

/-! ## Lists of computations -/

/-- All of some computations succeed when each of them does, with the results in the
order of the items. -/
theorem all_succeed {α β : Type} (compute : α → Except Exception β) (items : List α)
    (results : List β) :
    items.mapM compute = .ok results ↔
      List.Forall₂ (fun item result => compute item = .ok result) items results := by
  constructor
  · intro finished
    induction items generalizing results with
    | nil =>
      obtain rfl := Except.ok.inj finished
      exact .nil
    | cons item items inductionHypothesis =>
      rw [List.mapM_cons] at finished
      obtain ⟨result, first, finished⟩ := bind_ok finished
      obtain ⟨others, rest, finished⟩ := bind_ok finished
      obtain rfl := Except.ok.inj finished
      exact .cons first (inductionHypothesis others rest)
  · intro each
    induction each with
    | nil => rfl
    | cons first _ inductionHypothesis =>
      rw [List.mapM_cons, first, inductionHypothesis]
      rfl

/-- Computations that each succeed have results, which is how a column is known to be
encoded without naming its values. -/
theorem all_exist {α β : Type} (compute : α → Except Exception β) (items : List α)
    (each : ∀ item ∈ items, ∃ result, compute item = .ok result) :
    ∃ results, items.mapM compute = .ok results := by
  induction items with
  | nil => exact ⟨[], rfl⟩
  | cons item items inductionHypothesis =>
    obtain ⟨here, others⟩ := List.forall_mem_cons.mp each
    obtain ⟨result, first⟩ := here
    obtain ⟨results, rest⟩ := inductionHypothesis others
    exact ⟨result :: results, by rw [List.mapM_cons, first, rest]; rfl⟩

/-- In two lists related item by item, each item of the second is related to one of the
first. -/
theorem related_left {α β : Type} {related : α → β → Prop} {items : List α} {results : List β}
    (each : List.Forall₂ related items results) (result : β) (member : result ∈ results) :
    ∃ item ∈ items, related item result := by
  induction each with
  | nil => cases member
  | @cons item _ items results here _ inductionHypothesis =>
    rcases List.mem_cons.mp member with rfl | later
    · exact ⟨item, List.mem_cons_self, here⟩
    · obtain ⟨other, inside, found⟩ := inductionHypothesis later
      exact ⟨other, List.mem_cons_of_mem _ inside, found⟩

/-- Equal computations have equal results, as the copies of the warm-up and of the
cool-down do. -/
theorem all_replicate {α β : Type} (compute : α → Except Exception β) (item : α) (result : β)
    (finished : compute item = .ok result) (count : Nat) :
    (List.replicate count item).mapM compute = .ok (List.replicate count result) := by
  rw [all_succeed]
  induction count with
  | zero => exact .nil
  | succ count inductionHypothesis => exact .cons finished inductionHypothesis

/-- The results for lists that follow each other follow each other as well. -/
theorem all_append {α β : Type} (compute : α → Except Exception β) (before behind : List α)
    (first second : List β) (front : before.mapM compute = .ok first)
    (back : behind.mapM compute = .ok second) :
    (before ++ behind).mapM compute = .ok (first ++ second) := by
  rw [List.mapM_append, front, back]
  rfl

/-- They are the results of the one list in front of those of the other, so that a
column can be taken apart again. -/
theorem all_of_append {α β : Type} (compute : α → Except Exception β) (before behind : List α)
    (results : List β) (finished : (before ++ behind).mapM compute = .ok results) :
    ∃ first second, before.mapM compute = .ok first ∧ behind.mapM compute = .ok second ∧
      results = first ++ second := by
  rw [List.mapM_append] at finished
  obtain ⟨first, front, finished⟩ := bind_ok finished
  obtain ⟨second, back, finished⟩ := bind_ok finished
  exact ⟨first, second, front, back, (Except.ok.inj finished).symm⟩

/-- The first and the last result are those for the first and the last item. The warm-up
is read off them. -/
theorem ends_of_all {α β : Type} (compute : α → Except Exception β) (items : List α)
    (results : List β) (all : items.mapM compute = .ok results) (full : items ≠ []) :
    ∃ firstItem lastItem first last, items.head? = some firstItem ∧
      items.getLast? = some lastItem ∧ results.head? = some first ∧
      results.getLast? = some last ∧ compute firstItem = .ok first ∧
      compute lastItem = .ok last := by
  obtain ⟨firstItem, others, front⟩ := List.exists_cons_of_ne_nil full
  obtain ⟨before, lastItem, back⟩ := (List.eq_nil_or_concat items).resolve_left full
  rw [List.concat_eq_append] at back
  have single (item : α) (values : List β) (finished : [item].mapM compute = .ok values) :
      ∃ value, values = [value] ∧ compute item = .ok value := by
    rw [List.mapM_cons] at finished
    obtain ⟨value, computed, finished⟩ := bind_ok finished
    obtain ⟨rest, nothing, finished⟩ := bind_ok finished
    obtain rfl := Except.ok.inj nothing
    exact ⟨value, (Except.ok.inj finished).symm, computed⟩
  have split : items = [firstItem] ++ others := front
  obtain ⟨firsts, rest, firstComputed, _, resultsFront⟩ :=
    all_of_append compute [firstItem] others results (split ▸ all)
  obtain ⟨start, lasts, _, lastComputed, resultsBack⟩ :=
    all_of_append compute before [lastItem] results (back ▸ all)
  obtain ⟨first, rfl, firstValue⟩ := single firstItem firsts firstComputed
  obtain ⟨last, rfl, lastValue⟩ := single lastItem lasts lastComputed
  exact ⟨firstItem, lastItem, first, last, by rw [front]; rfl, by rw [back]; simp,
    by rw [resultsFront]; rfl, by rw [resultsBack]; simp, firstValue, lastValue⟩

/-! ## The copies -/

/-- A float that a cell was read as is written so that it is encoded as the cell. -/
theorem copy_encoded (cell : Text) (value : Double) (read : element cell = .ok value) :
    toHexString (strOf value) = toHexString cell := by
  have written : IsFloat value := by
    unfold element at read
    split_ifs at read
    · obtain rfl := Except.ok.inj read
      exact ⟨nearest_zero, by norm_num [limit]⟩
    · exact float_is_float cell value read
  have text : float (strOf value) = .ok value := float_str value written
  have number : strOf value ≠ ".".toList := by
    intro same
    rw [same] at text
    cases text
  have cellText : float (if cell = ".".toList then "0.0".toList else cell) = .ok value := by
    unfold element at read
    split_ifs at read ⊢
    · rw [← read]
      decide +kernel
    · exact read
  rw [toHexString, toHexString, if_neg number, cellText, text]

/-- A cell that is encoded was read as a float, as the encoding begins with that. -/
theorem element_of_encoded (cell hex : Text) (finished : toHexString cell = .ok hex) :
    ∃ value, element cell = .ok value := by
  obtain ⟨value, read, _⟩ := bind_ok finished
  unfold element
  split_ifs at read ⊢
  · exact ⟨_, rfl⟩
  · exact ⟨value, read⟩

/-- The texts of a column are encoded as the values of its cells, with copies of the
first and the last. -/
theorem copies_encoded (cells values : List Text) (firstCell lastCell first last : Text)
    (firstElem lastElem : Double) (firstRead : element firstCell = .ok firstElem)
    (lastRead : element lastCell = .ok lastElem) (firstHex : toHexString firstCell = .ok first)
    (lastHex : toHexString lastCell = .ok last) (all : cells.mapM toHexString = .ok values) :
    (List.replicate warmUpTime (strOf firstElem) ++ cells ++
        List.replicate coolDownTime (strOf lastElem)).mapM toHexString =
      .ok (List.replicate warmUpTime first ++ values ++ List.replicate coolDownTime last) := by
  have front := (copy_encoded firstCell firstElem firstRead).trans firstHex
  have back := (copy_encoded lastCell lastElem lastRead).trans lastHex
  exact all_append _ _ _ _ _
    (all_append _ _ _ _ _ (all_replicate _ _ _ front _) all) (all_replicate _ _ _ back _)

/-- What a column is encoded as: its values, between copies of the first of them and
copies of the last. -/
theorem encoded_parts (cells hexes : List Text) (finished : encoded cells = .ok hexes) :
    ∃ values first last, cells.mapM toHexString = .ok values ∧
      values.head? = some first ∧ values.getLast? = some last ∧
      hexes = List.replicate warmUpTime first ++ values ++ List.replicate coolDownTime last := by
  obtain ⟨texts, padding, finished⟩ := bind_ok finished
  obtain ⟨firstElem, firstRead, padding⟩ := bind_ok padding
  obtain ⟨lastElem, lastRead, padding⟩ := bind_ok padding
  obtain rfl := Except.ok.inj padding
  obtain ⟨front, _, inside, _, _⟩ := all_of_append _ _ _ _ finished
  obtain ⟨_, values, _, all, _⟩ := all_of_append _ _ _ _ inside
  have full : cells ≠ [] := by
    rintro rfl
    cases firstRead
  obtain ⟨firstCell, lastCell, first, last, firstFound, lastFound, firstValue, lastValue,
    firstHex, lastHex⟩ := ends_of_all toHexString cells values all full
  rw [firstFound] at firstRead
  rw [lastFound] at lastRead
  have result := copies_encoded cells values firstCell lastCell first last firstElem lastElem
    firstRead lastRead firstHex lastHex all
  exact ⟨values, first, last, all, firstValue, lastValue,
    Except.ok.inj (finished.symm.trans result)⟩

/-- A column whose cells are encoded is encoded, with the copies in front and behind. -/
theorem encoded_of_parts (cells values : List Text) (first last : Text)
    (all : cells.mapM toHexString = .ok values) (firstValue : values.head? = some first)
    (lastValue : values.getLast? = some last) :
    encoded cells =
      .ok (List.replicate warmUpTime first ++ values ++ List.replicate coolDownTime last) := by
  have full : cells ≠ [] := by
    rintro rfl
    obtain rfl := Except.ok.inj all
    cases firstValue
  obtain ⟨firstCell, lastCell, _, _, firstFound, lastFound, sameFirst, sameLast, firstHex,
    lastHex⟩ := ends_of_all toHexString cells values all full
  obtain rfl := Option.some.inj (firstValue.symm.trans sameFirst)
  obtain rfl := Option.some.inj (lastValue.symm.trans sameLast)
  obtain ⟨firstElem, firstRead⟩ := element_of_encoded firstCell first firstHex
  obtain ⟨lastElem, lastRead⟩ := element_of_encoded lastCell last lastHex
  have texts : padded cells = .ok (List.replicate warmUpTime (strOf firstElem) ++ cells ++
      List.replicate coolDownTime (strOf lastElem)) := by
    rw [padded, firstFound, lastFound]
    change element firstCell >>= _ = _
    rw [firstRead]
    change element lastCell >>= _ = _
    rw [lastRead]
    rfl
  rw [encoded, texts]
  exact copies_encoded cells values firstCell lastCell first last firstElem lastElem firstRead
    lastRead firstHex lastHex all

/-- A column is encoded if and only if it has cells and each of them is; and then the
warm-up is the first value and the cool-down the last one.

Proof: the texts in front are those of the first cell read and written again, and
encoding gives the same digits for these as for the cell itself; likewise behind. -/
theorem encoded_iff (cells hexes : List Text) :
    encoded cells = .ok hexes ↔ ∃ values first last, cells.mapM toHexString = .ok values ∧
      values.head? = some first ∧ values.getLast? = some last ∧
      hexes = List.replicate warmUpTime first ++ values ++ List.replicate coolDownTime last := by
  constructor
  · exact encoded_parts cells hexes
  · rintro ⟨values, first, last, all, firstValue, lastValue, rfl⟩
    exact encoded_of_parts cells values first last all firstValue lastValue

end EventRecorder.Columns
