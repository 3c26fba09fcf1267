import EventRecorder.RecordedSeries

/-!
# From the table to the plots

The extractor encodes the columns of a table as frames, the random log merges them, and the
broker hands their values to the safety thread. What is then recorded of the first crash and
plotted of a column is a piece of it: five hundred of its values in a row, of which the two
hundredth is the last that came up to the crash.
-/

namespace EventRecorder.PlottedTable

open Arithmetic CText SafetyStatus SafetyLoop PreCrashWindow PostCrashWindow SentMails
open LoggerRoutes TakenRecords Plots Database Durability RecordedSeries
open FirstCrash (opened_recording)
open CrashReport (record_routable direct_recording willingSqlite)
open Sqlite (Row)
open Extractor GeneratedFrames Columns RandomLog Replay WarmUp Frames Sha LineFraming

/-- Each column has a quantity whose values are its samples, and whose records the plots
select by the column's number. -/
theorem column_field (column : Nat × Text) (known : column ∈ csvCols) :
    ∃ field : LogField, isSample field = true ∧ field.pid = column.1 ∧
      field.channel = CanData.ofCode column.1 := by
  simp only [csvCols, List.mem_cons, List.not_mem_nil, or_false] at known
  rcases known with rfl | rfl | rfl | rfl | rfl
  · exact ⟨.accPedal, rfl, rfl, rfl⟩
  · exact ⟨.brake, rfl, rfl, rfl⟩
  · exact ⟨.speed, rfl, rfl, rfl⟩
  · exact ⟨.accLong, rfl, rfl, rfl⟩
  · exact ⟨.accLat, rfl, rfl, rfl⟩

/-- The end of one list and the start of the next are a piece of both. -/
theorem piece_of_append {α : Type} (earlier later : List α) (window limit : Nat)
    (enough : window ≤ earlier.length) :
    earlier.drop (earlier.length - window) ++ later.take limit =
      ((earlier ++ later).drop (earlier.length - window)).take (window + limit) := by
  have length : (earlier.drop (earlier.length - window)).length = window := by
    rw [List.length_drop]
    omega
  rw [List.drop_append_of_le_length (by omega), List.take_append, length, Nat.add_sub_cancel_left,
    List.take_of_length_le (length.le.trans (Nat.le_add_right window limit))]

section

variable {F : Type}

/-- The values of a channel come in the order of the turns. -/
theorem values_append (channel : CanData) (turns later : List (Turn F)) :
    valuesOf channel (turns ++ later) = valuesOf channel turns ++ valuesOf channel later := by
  simp [valuesOf]

/-- What is received of a channel are its values, so that counting one counts the other. -/
theorem values_received (channel : CanData) (turns : List (Turn F)) :
    (valuesOf channel turns).length = received channel turns := by
  induction turns using List.reverseRecOn with
  | nil => rfl
  | append_singleton turns turn inductionHypothesis =>
    rw [values_of_snoc, List.length_append, inductionHypothesis, received_snoc,
      channel_values_single]
    by_cases own : turn.mail.channel = channel <;> cases turn.mail.sample <;> simp [own]

/-- Turns that take in the mails of all frames of a table have the values of its columns. -/
theorem values_arranged [Arithmetic F] (df : Text → List Text) (frames : List DataFrame)
    (arranged : Arranged df frames) (turns : List (Turn F))
    (arrived : carried turns = frames.map DataFrame.mail) (column : Nat × Text)
    (known : column ∈ csvCols) :
    ∃ hexes, encoded (nlist df column.2) = .ok hexes ∧
      valuesOf (CanData.ofCode column.1) turns = hexes.map hexGetFloat := by
  obtain ⟨hexes, finished, ordered⟩ := arranged.ordered column known
  refine ⟨hexes, finished, ?_⟩
  rw [values_of_carried, arrived, column_values df frames arranged frames (List.Subset.refl _)
    column known, ordered, List.map_map]
  rfl

end

section

variable {W F : Type} [Arithmetic F] [LogHeader]

/-- What is plotted of a column of which `seen` values have come up to the crash. -/
def piece (hexes : List Text) (seen : Nat) : List F :=
  ((hexes.map hexGetFloat).drop (seen - statusLogBeforeSize)).take
    (statusLogBeforeSize + statusLogAfterSize)

end

/-! ## A table with a jump -/

/-- The moment that takes in a frame, while memory shows data records. -/
def frameMoment (frame : DataFrame) : Moment ℚ := ⟨frameTurn frame, fun _ => dataLog 0 0 []⟩

/-- The turns of these moments are those of the frames. -/
theorem frame_moment_turns (frames : List DataFrame) :
    (frames.map frameMoment).map Moment.turn = frames.map frameTurn := by
  simp [frameMoment]

/-- All frames carry a sample, so that none of them is skipped. -/
theorem carried_frames (frames : List DataFrame) :
    carried (frames.map frameTurn) = frames.map DataFrame.mail := by
  rw [carried, List.filter_eq_self.mpr, List.map_map]
  · rfl
  · intro turn member
    obtain ⟨frame, _, rfl⟩ := List.mem_map.mp member
    rfl

/-- What is received of a channel are the frames of its column, by the identifiers in
them. -/
theorem received_frames (df : Text → List Text) (frames some : List DataFrame)
    (arranged : Arranged df frames) (within : some ⊆ frames) (column : Nat × Text)
    (known : column ∈ csvCols) :
    received (CanData.ofCode column.1) (some.map frameTurn) =
      (some.filter fun frame => frame.pid = column.1).length := by
  rw [← values_received, values_of_carried, carried_frames,
    column_values df frames arranged some within column known, List.length_map]

/-- The columns of the table, with their warm-up and their cool-down, are as long as one
another. -/
theorem jump_length (more : Nat) (column : Nat × Text) (known : column ∈ csvCols)
    (hexes : List Text) (finished : encoded (nlist (jumpTable more) column.2) = .ok hexes) :
    hexes.length = 402 + more := by
  rw [jump_encoded more column known] at finished
  obtain rfl := Except.ok.inj finished
  have warmUp : warmUpTime = 200 := warm_up_time
  have coolDown : coolDownTime = 200 := warm_up_time
  rw [List.length_append, List.length_replicate, List.length_replicate]
  omega

/-- With the jump, 201 or 202 frames of each column have come, as the log takes one of
each in turn. -/
theorem jump_counts (more : Nat) (front later : List DataFrame)
    (arranged : Arranged (jumpTable more) (front ++ jumpFrame :: later))
    (many : (front.filter fun frame => frame.pid = 6).length = warmUpTime + 1)
    (column : Nat × Text) (known : column ∈ csvCols) :
    ∃ count, ((front ++ [jumpFrame]).filter fun frame => frame.pid = column.1).length = count ∧
      201 ≤ count ∧ count ≤ 202 ∧
      count + (later.filter fun frame => frame.pid = column.1).length = 402 + more := by
  have split : front ++ jumpFrame :: later = (front ++ [jumpFrame]) ++ later := by simp
  have total (column : Nat × Text) (known : column ∈ csvCols) :
      ((front ++ jumpFrame :: later).filter fun frame => frame.pid = column.1).length =
        402 + more := by
    obtain ⟨hexes, finished, ordered⟩ := arranged.ordered column known
    rw [ordered, List.length_map, jump_length more column known hexes finished]
  have axis : ((6, "longitudinal_accel".toList) : Nat × Text) ∈ csvCols := by decide
  have here : ((front ++ [jumpFrame]).filter fun frame => frame.pid = 6).length = 202 := by
    rw [List.filter_append, List.length_append, many, warm_up_time]
    rfl
  have sum := total column known
  rw [split, List.filter_append, List.length_append] at sum
  refine ⟨_, rfl, ?_, ?_, sum⟩
  · -- A column that lacks some frames has come at most once less often than the jump's.
    by_cases some : ((front ++ [jumpFrame]).filter fun frame => frame.pid = column.1).length <
        402 + more
    · have even := arranged.even (front ++ [jumpFrame]) later split column known
        (by rw [total column known]; exact some) _ axis
      dsimp only at even
      omega
    · omega
  · by_cases same : column.1 = 6
    · rw [same, here]
    · have before := total _ axis
      dsimp only at before
      have even := arranged.even front (jumpFrame :: later) rfl _ axis
        (by dsimp only; rw [before, many, warm_up_time]; omega) column known
      have other : [jumpFrame].filter (fun frame => frame.pid = column.1) = [] := by
        rw [List.filter_eq_nil_iff]
        intro frame member
        obtain rfl := List.mem_singleton.mp member
        exact fun own => same (of_decide_eq_true own).symm
      rw [List.filter_append, other, List.append_nil]
      dsimp only at even
      rw [many, warm_up_time] at even
      exact even

/-- With a hundred more rows the channels are complete behind the jump, and the end of the
crash is sent. -/
theorem jump_ended (front later : List DataFrame)
    (arranged : Arranged (jumpTable 101) (front ++ jumpFrame :: later))
    (zeros : ∀ frame ∈ front, frame.hex = "00000000".toList)
    (many : (front.filter fun frame => frame.pid = 6).length = warmUpTime + 1) :
    ∃ mail ∈ sent (start (fun _ => true) none)
        (front.map frameMoment ++ frameMoment jumpFrame :: later.map frameMoment),
      ends mail = true := by
  obtain ⟨silent, starts⟩ := jump_crash front zeros (by rw [many, warm_up_time]; decide)
  have first : announces .eventCrashStart
      (stored (start (fun _ => true) none) (front.map frameTurn)) = false := by
    rw [silent]
    rfl
  have opened := opened_recording (fun _ => true) none _ (frameTurn jumpFrame) first starts
  have complete : Complete ((later.map frameMoment).map Moment.turn) := by
    intro channel known
    obtain ⟨column, among, rfl⟩ : ∃ column ∈ csvCols, CanData.ofCode column.1 = channel := by
      cases channel with
      | unknown => exact absurd rfl known
      | acceleratorPedalValue => exact ⟨(2, "gas_pedal_position".toList), by decide, rfl⟩
      | brakeSwitchValue => exact ⟨(3, "brake_on_off".toList), by decide, rfl⟩
      | vehicleSpeed => exact ⟨(5, "speed_vehicle_composite".toList), by decide, rfl⟩
      | accelerationSpeedLongitudinal => exact ⟨(6, "longitudinal_accel".toList), by decide, rfl⟩
      | accelerationSpeedLateral => exact ⟨(7, "lateral_accel".toList), by decide, rfl⟩
    obtain ⟨count, _, _, few, sum⟩ := jump_counts 101 front later arranged many column among
    rw [frame_moment_turns, received_frames _ _ later arranged
      (fun frame member => by simp [member]) column among, statusLogAfterSize]
    omega
  obtain ⟨mails, text, behind, sends, _⟩ := closed_run _ opened _ complete
  have split : sent (start (fun _ => true) none)
      (front.map frameMoment ++ frameMoment jumpFrame :: later.map frameMoment) =
      sent (start (fun _ => true) none) (front.map frameMoment ++ [frameMoment jumpFrame]) ++
        sent (after (start (fun _ => true) none) (front.map frameTurn ++ [frameTurn jumpFrame]))
          (later.map frameMoment) := by
    have turns : (front.map frameMoment ++ [frameMoment jumpFrame]).map Moment.turn =
        front.map frameTurn ++ [frameTurn jumpFrame] := by
      simp [frameMoment]
    rw [← turns, ← after_moments, ← List.singleton_append, ← List.append_assoc, sent, sent, sent,
      Runs.emitted_append]
  refine ⟨notifMail .eventCrashEnd text, ?_, rfl⟩
  rw [split, sends]
  simp

end EventRecorder.PlottedTable
