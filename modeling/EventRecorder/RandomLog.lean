import EventRecorder.GeneratedFrames
import EventRecorder.Interleaving
import EventRecorder.RoundRobin

/-!
# The logger of random order

`randomize-logger.py` writes the lines of several files into one log. It goes through
the files in rounds: a round takes the first line of each file that has lines left, in
an order that `random.choice` decides. The time in front of a line is a float that
grows by `0.01` with each.

What `random.choice` returns is a parameter: any run of it is a sequence of numbers, of
which the element at each position modulo the length is chosen.
-/

namespace EventRecorder.RandomLog

open CText Binary64 Python GeneratedFrames Interleaving RoundRobin

/-- `random.choice (seq)`, for the number that decides it. Every element can be chosen,
and an empty list has none. -/
def choice (number : Nat) (seq : List Nat) : Except Exception Nat :=
  match seq[number % seq.length]? with
  | some index => .ok index
  | none => .error .indexError

/-- `list.remove (index)`, which takes the first occurrence out and fails without one. -/
def remove (list : List Nat) (index : Nat) : Except Exception (List Nat) :=
  if index ∈ list then .ok (list.erase index) else .error .valueError

/-- `file_contents[index].pop (0)`: the line, and the contents without it. -/
def popFirst (fileContents : List (List Text)) (index : Nat) :
    Except Exception (Text × List (List Text)) :=
  match fileContents[index]? with
  | some (line :: rest) => .ok (line, fileContents.set index rest)
  | _ => .error .indexError

/-- The files that are left once a line was taken: all but one that has become empty. -/
def shortened (lrange : List Nat) (fileContents : List (List Text)) (index : Nat) :
    Except Exception (List Nat) :=
  if fileContents[index]? = some [] then remove lrange index else .ok lrange

/-- The variables of the loop: the lines left, the files left, the files due in this
round, and the time. -/
structure Shuffle where
  fileContents : List (List Text)
  lrange : List Nat
  lrangeTmp : List Nat
  time : ℚ

/-- Their values before the loop, when every file is left and due and the time is zero. -/
def Shuffle.initial (fileContents : List (List Text)) : Shuffle :=
  ⟨fileContents, List.range fileContents.length, List.range fileContents.length, 0⟩

/-- `time + 0.01`, as the sum of two doubles is rounded. -/
def tick (time : ℚ) : ℚ := nearest (time + nearest (1 / 100))

/-- One turn of the loop: the line it prints, and the variables afterwards. Each of the
calls in it may raise an exception. -/
def turn (can : Interface) (number : Nat) (state : Shuffle) :
    Except Exception (Text × Shuffle) := do
  let index ← choice number state.lrangeTmp
  let lrangeTmp ← remove state.lrangeTmp index
  let (line, fileContents) ← popFirst state.fileContents index
  let printed := logLine (.finite false state.time) can line
  let lrange ← shortened state.lrange fileContents index
  return (printed, ⟨fileContents, lrange, if lrangeTmp = [] then lrange else lrangeTmp,
    tick state.time⟩)

/-- The lines that are still in the files, which is what the loop terminates by. -/
def Shuffle.remaining (state : Shuffle) : Nat := state.fileContents.flatten.length

/-! ## One turn -/

/-- What a turn does when it raises no exception, with the file that it takes its line
from. -/
structure Turned (can : Interface) (state : Shuffle) (printed : Text) (next : Shuffle)
    (index : Nat) (line : Text) (rest : List Text) : Prop where
  chosen : index ∈ state.lrangeTmp
  found : state.fileContents[index]? = some (line :: rest)
  listed : rest = [] → index ∈ state.lrange
  printed : printed = logLine (.finite false state.time) can line
  contents : next.fileContents = state.fileContents.set index rest
  rounds : (⟨next.lrange, next.lrangeTmp⟩ : Rounds Nat) =
    Rounds.draw ⟨state.lrange, state.lrangeTmp⟩ index (rest = [])
  time : next.time = tick state.time

/-- A number chooses an element of a list that has one, whatever the number is. -/
theorem choice_mem (number : Nat) (seq : List Nat) (index : Nat)
    (chosen : choice number seq = .ok index) : index ∈ seq := by
  unfold choice at chosen
  split at chosen
  · rename_i found
    obtain rfl := Except.ok.inj chosen
    exact List.mem_of_getElem? found
  · cases chosen

/-- A list that is not empty has an element for every number. -/
theorem choice_some (number : Nat) (seq : List Nat) (some : seq ≠ []) :
    ∃ index ∈ seq, choice number seq = .ok index := by
  have inside : number % seq.length < seq.length :=
    Nat.mod_lt _ (List.length_pos_iff.mpr some)
  refine ⟨seq[number % seq.length], List.getElem_mem inside, ?_⟩
  rw [choice, List.getElem?_eq_getElem inside]

/-- A turn that raises no exception does this. Proofs about the loop use it and do not
unfold the turn. -/
theorem turn_ok (can : Interface) (number : Nat) (state : Shuffle) (printed : Text)
    (next : Shuffle) (finished : turn can number state = .ok (printed, next)) :
    ∃ index line rest, Turned can state printed next index line rest := by
  obtain ⟨index, chosen, finished⟩ := bind_ok finished
  obtain ⟨lrangeTmp, removed, finished⟩ := bind_ok finished
  obtain ⟨⟨line, fileContents⟩, popped, finished⟩ := bind_ok finished
  obtain ⟨lrange, left, finished⟩ := bind_ok finished
  have due := choice_mem number _ index chosen
  rw [remove, if_pos due] at removed
  obtain rfl := Except.ok.inj removed
  unfold popFirst at popped
  split at popped
  case h_2 => cases popped
  case h_1 first rest found =>
    obtain ⟨rfl, rfl⟩ := Prod.mk.inj (Except.ok.inj popped)
    obtain ⟨rfl, rfl⟩ := Prod.mk.inj (Except.ok.inj finished)
    rw [shortened, set_found _ index first rest found] at left
    refine ⟨index, first, rest, due, found, ?_, rfl, rfl, ?_, rfl⟩
    · rintro rfl
      rw [if_pos rfl, remove] at left
      split_ifs at left with listed
      exact listed
    · by_cases last : rest = []
      · subst last
        rw [if_pos rfl, remove] at left
        split_ifs at left
        obtain rfl := Except.ok.inj left
        simp [Rounds.draw]
      · rw [if_neg (by simpa using last)] at left
        obtain rfl := Except.ok.inj left
        simp [Rounds.draw, last]

/-- A turn takes one line out of the files and leaves the others. -/
theorem turn_remaining (can : Interface) (number : Nat) (state : Shuffle) (printed : Text)
    (next : Shuffle) (finished : turn can number state = .ok (printed, next)) :
    next.remaining + 1 = state.remaining := by
  obtain ⟨index, line, rest, turned⟩ := turn_ok can number state printed next finished
  obtain ⟨inside, same⟩ := List.getElem?_eq_some_iff.mp turned.found
  have split : state.fileContents = state.fileContents.take index ++
      (line :: rest) :: state.fileContents.drop (index + 1) := by
    rw [← same, ← List.drop_eq_getElem_cons inside, List.take_append_drop]
  have taken : next.fileContents = state.fileContents.take index ++
      rest :: state.fileContents.drop (index + 1) := by
    rw [turned.contents, List.set_eq_take_append_cons_drop, if_pos inside]
  have count := congrArg (fun contents => contents.flatten.length) split
  have fewer := congrArg (fun contents => contents.flatten.length) taken
  simp only [List.flatten_append, List.flatten_cons, List.length_append, List.length_cons]
    at count fewer
  simp only [Shuffle.remaining]
  omega

/-- The loop: the lines printed until no file is left. Every call of `random.choice` has
a number of its own. -/
def randomLoop (can : Interface) (numbers : Nat → Nat) (state : Shuffle) :
    Except Exception (List Text) :=
  if state.lrange = [] then .ok []
  else
    match _finished : turn can (numbers 0) state with
    | .error exception => .error exception
    | .ok (printed, next) =>
      (randomLoop can (fun call => numbers (call + 1)) next).map (printed :: ·)
termination_by state.remaining
decreasing_by
  have fewer := turn_remaining can (numbers 0) state printed next _finished
  omega

/-- The log that `randomize-logger.py` writes for the contents of some files, or the
exception that ends it. -/
def randomLog (can : Interface) (numbers : Nat → Nat) (fileContents : List (List Text)) :
    Except Exception (List Text) :=
  randomLoop can numbers (.initial fileContents)

/-! ## Rounds of the loop -/

/-- From even rounds with a file left, a turn takes a line of a file that is due, or
fails because it has none. -/
theorem turn_cases (can : Interface) (number : Nat) (state : Shuffle) (drawn : List Nat)
    (even : Even drawn ⟨state.lrange, state.lrangeTmp⟩) (left : state.lrange ≠ []) :
    (∃ printed next, turn can number state = .ok (printed, next)) ∨
      ∃ index ∈ state.lrange, (∀ line rest, state.fileContents[index]? ≠ some (line :: rest)) ∧
        turn can number state = .error .indexError := by
  have waiting : state.lrangeTmp ≠ [] := fun none => left (even.goes none)
  obtain ⟨index, due, chosen⟩ := choice_some number state.lrangeTmp waiting
  have listed := even.among.subset due
  have removed : remove state.lrangeTmp index = .ok (state.lrangeTmp.erase index) := if_pos due
  have before : turn can number state = popFirst state.fileContents index >>= fun popped =>
      shortened state.lrange popped.2 index >>= fun lrange =>
        .ok (logLine (.finite false state.time) can popped.1,
          ⟨popped.2, lrange, if state.lrangeTmp.erase index = [] then lrange
            else state.lrangeTmp.erase index, tick state.time⟩) := by
    rw [turn, chosen]
    change remove state.lrangeTmp index >>= _ = _
    rw [removed]
    rfl
  have shorter (fileContents : List (List Text)) :
      ∃ lrange, shortened state.lrange fileContents index = .ok lrange := by
    unfold shortened remove
    split_ifs
    · exact ⟨_, rfl⟩
    · exact ⟨_, rfl⟩
  by_cases full : ∃ line rest, state.fileContents[index]? = some (line :: rest)
  · obtain ⟨line, rest, found⟩ := full
    have popped : popFirst state.fileContents index =
        .ok (line, state.fileContents.set index rest) := by
      rw [popFirst, found]
    obtain ⟨lrange, taken⟩ := shorter (state.fileContents.set index rest)
    have finished : turn can number state = .ok (logLine (.finite false state.time) can line,
        ⟨state.fileContents.set index rest, lrange, if state.lrangeTmp.erase index = [] then lrange
          else state.lrangeTmp.erase index, tick state.time⟩) := by
      rw [before, popped]
      change shortened state.lrange (state.fileContents.set index rest) index >>= _ = _
      rw [taken]
      rfl
    exact .inl ⟨_, _, finished⟩
  · have empty (line : Text) (rest : List Text) :
        state.fileContents[index]? ≠ some (line :: rest) :=
      fun found => full ⟨line, rest, found⟩
    have popped : popFirst state.fileContents index = .error .indexError := by
      unfold popFirst
      split
      · exact absurd ‹_› (empty _ _)
      · rfl
    refine .inr ⟨index, listed, empty, ?_⟩
    rw [before, popped]
    rfl

/-- A turn keeps the rounds even, since it takes a file that is due and every file is
due once in a round. -/
theorem turned_even {can : Interface} {state : Shuffle} {printed : Text} {next : Shuffle}
    {index : Nat} {line : Text} {rest : List Text} {drawn : List Nat}
    (turned : Turned can state printed next index line rest)
    (even : Even drawn ⟨state.lrange, state.lrangeTmp⟩) :
    Even (drawn ++ [index]) ⟨next.lrange, next.lrangeTmp⟩ := by
  rw [turned.rounds]
  exact even_draw drawn _ index _ even turned.chosen

/-- A file is left exactly while it has lines, so that no turn finds a file empty. -/
def LeftExact (state : Shuffle) : Prop :=
  ∀ index, index ∈ state.lrange ↔ ∃ line rest, state.fileContents[index]? = some (line :: rest)

/-- A turn keeps this: a file whose last line was taken is removed. -/
theorem turned_left {can : Interface} {state : Shuffle} {printed : Text} {next : Shuffle}
    {index : Nat} {line : Text} {rest : List Text}
    (turned : Turned can state printed next index line rest) (distinct : state.lrange.Nodup)
    (exact : LeftExact state) : LeftExact next := by
  intro other
  have lrange : next.lrange = if rest = [] then state.lrange.erase index else state.lrange := by
    have same := congrArg Rounds.left turned.rounds
    simpa [Rounds.draw] using same
  rw [lrange, turned.contents]
  by_cases own : other = index
  · subst other
    rw [set_found _ index line rest turned.found]
    cases rest with
    | nil => simp [distinct.mem_erase_iff]
    | cons second others =>
      have member := (exact index).mpr ⟨line, second :: others, turned.found⟩
      simp [member]
  · rw [List.getElem?_set_ne (Ne.symm own), ← exact other]
    split_ifs
    · rw [distinct.mem_erase_iff]
      exact and_iff_right own
    · exact Iff.rfl

/-! ## The log -/

/-- Wherever the log is cut, no file has come more often than one that has lines left,
but for once. -/
def Balanced (fileContents : List (List Text)) (drawn sources : List Nat) : Prop :=
  ∀ before rest, sources = before ++ rest → ∀ index file, fileContents[index]? = some file →
    before.count index < file.length → ∀ other,
      (drawn ++ before).count other ≤ (drawn ++ before).count index + 1

/-- The loop goes on behind a turn that raises no exception, with the numbers that
follow. -/
theorem random_loop_turn (can : Interface) (numbers : Nat → Nat) (state : Shuffle)
    (printed : Text) (next : Shuffle) (left : state.lrange ≠ [])
    (finished : turn can (numbers 0) state = .ok (printed, next)) :
    randomLoop can numbers state =
      (randomLoop can (fun call => numbers (call + 1)) next).map (printed :: ·) := by
  rw [randomLoop, if_neg left]
  split
  · simp_all
  · simp_all

/-- It ends with the exception of a turn, and no log is written then. -/
theorem random_loop_error (can : Interface) (numbers : Nat → Nat) (state : Shuffle)
    (exception : Exception) (left : state.lrange ≠ [])
    (failed : turn can (numbers 0) state = .error exception) :
    randomLoop can numbers state = .error exception := by
  rw [randomLoop, if_neg left]
  split
  · simp_all
  · simp_all

/-- The loop from even rounds in which every file that is left has lines: it prints the
lines of the files, mixed in this way. -/
theorem random_loop_exact (can : Interface) (numbers : Nat → Nat) (state : Shuffle)
    (drawn : List Nat) (even : Even drawn ⟨state.lrange, state.lrangeTmp⟩)
    (exact : LeftExact state) :
    ∃ sources lines, randomLoop can numbers state =
        .ok (lines.mapIdx fun line text =>
          logLine (.finite false (tick^[line] state.time)) can text) ∧
      Interleaves state.fileContents sources lines ∧
      Balanced state.fileContents drawn sources := by
  by_cases left : state.lrange = []
  · have empty : ∀ (index : Nat) (file : List Text),
        state.fileContents[index]? = some file → file = [] := by
      intro index file found
      cases file with
      | nil => rfl
      | cons line rest =>
        have member := (exact index).mpr ⟨line, rest, found⟩
        rw [left] at member
        cases member
    refine ⟨[], [], ?_, interleaves_nil _ empty, ?_⟩
    · rw [randomLoop, if_pos left]
      rfl
    · intro before rest split index file found fewer
      obtain rfl : before = [] := (List.append_eq_nil_iff.mp split.symm).1
      rw [empty index file found] at fewer
      cases fewer
  rcases turn_cases can (numbers 0) state drawn even left with
    ⟨printed, next, finished⟩ | ⟨index, listed, empty, _⟩
  · obtain ⟨index, line, rest, turned⟩ := turn_ok can (numbers 0) state printed next finished
    have fewer := turn_remaining can (numbers 0) state printed next finished
    obtain ⟨sources, lines, following, interleaves, balanced⟩ :=
      random_loop_exact can (fun call => numbers (call + 1)) next (drawn ++ [index])
        (turned_even turned even) (turned_left turned even.distinct exact)
    rw [turned.contents] at interleaves balanced
    refine ⟨index :: sources, line :: lines, ?_,
      interleaves_cons _ index line rest sources lines turned.found interleaves, ?_⟩
    · rw [random_loop_turn can numbers state printed next left finished, following, turned.printed,
        turned.time, List.mapIdx_cons]
      rfl
    · intro before later split other file found room
      cases before with
      | nil =>
        have member : other ∈ state.lrange := by
          refine (exact other).mpr ?_
          cases file with
          | nil => cases room
          | cons first others => exact ⟨first, others, found⟩
        simpa using fun third => even.fair other third member
      | cons first before =>
        obtain ⟨rfl, others⟩ := List.cons.inj split
        have behind : drawn ++ index :: before = drawn ++ [index] ++ before := by simp
        rw [behind]
        by_cases own : index = other
        · subst other
          obtain rfl := Option.some.inj (turned.found.symm.trans found)
          rw [List.count_cons_self, List.length_cons] at room
          exact balanced before later others index rest
            (set_found _ index line rest turned.found) (Nat.lt_of_succ_lt_succ room)
        · rw [List.count_cons_of_ne own] at room
          exact balanced before later others other file
            (by rw [List.getElem?_set_ne own]; exact found) room
  · obtain ⟨line, rest, found⟩ := (exact index).mp listed
    exact absurd found (empty line rest)
termination_by state.remaining
decreasing_by omega

/-- The loop fails for want of a line if a file that is left has none. -/
theorem random_loop_fails (can : Interface) (numbers : Nat → Nat) (state : Shuffle)
    (drawn : List Nat) (index : Nat) (even : Even drawn ⟨state.lrange, state.lrangeTmp⟩)
    (listed : index ∈ state.lrange) (empty : state.fileContents[index]? = some []) :
    randomLoop can numbers state = .error .indexError := by
  have left : state.lrange ≠ [] := List.ne_nil_of_mem listed
  rcases turn_cases can (numbers 0) state drawn even left with
    ⟨printed, next, finished⟩ | ⟨_, _, _, failed⟩
  · obtain ⟨other, line, rest, turned⟩ := turn_ok can (numbers 0) state printed next finished
    have fewer := turn_remaining can (numbers 0) state printed next finished
    have different : index ≠ other := by
      rintro rfl
      simp [turned.found] at empty
    have still : index ∈ next.lrange := by
      have same := congrArg Rounds.left turned.rounds
      simp only [Rounds.draw, decide_eq_true_eq] at same
      rw [same]
      split_ifs
      · exact (List.mem_erase_of_ne different).mpr listed
      · exact listed
    have failed := random_loop_fails can (fun call => numbers (call + 1)) next (drawn ++ [other])
      index (turned_even turned even) still
      (by rw [turned.contents, List.getElem?_set_ne (Ne.symm different)]; exact empty)
    rw [random_loop_turn can numbers state printed next left finished, failed]
    rfl
  · exact random_loop_error can numbers state _ left failed
termination_by state.remaining
decreasing_by omega

/-- Before the loop every file is left and due, and none has been drawn. -/
theorem initial_even (fileContents : List (List Text)) :
    Even [] ⟨(Shuffle.initial fileContents).lrange, (Shuffle.initial fileContents).lrangeTmp⟩ :=
  even_start _ List.nodup_range

/-- At first every file is left, and has lines if none is empty. -/
theorem initial_left (fileContents : List (List Text)) (full : [] ∉ fileContents) :
    LeftExact (.initial fileContents) := by
  intro index
  simp only [Shuffle.initial, List.mem_range]
  constructor
  · intro inside
    cases contents : fileContents[index] with
    | nil => exact absurd (contents ▸ List.getElem_mem inside) full
    | cons line rest => exact ⟨line, rest, by rw [List.getElem?_eq_getElem inside, contents]⟩
  · rintro ⟨line, rest, found⟩
    exact (List.getElem?_eq_some_iff.mp found).1

/-- Whatever `random.choice` returns, the log of files that have lines consists of all
their lines, those of each file in their order, behind times that grow by `0.01`; and
wherever it is cut, a file that has lines left has come at most once less often than any
other.

Proof: every turn keeps the rounds even and the files exact, so that none fails; by
induction on the lines that remain, the sources and the lines of the rest are put
together with those of the turn. -/
theorem random_log_interleaves (can : Interface) (numbers : Nat → Nat)
    (fileContents : List (List Text)) (full : [] ∉ fileContents) :
    ∃ sources lines, randomLog can numbers fileContents =
        .ok (lines.mapIdx fun line text => logLine (.finite false (tick^[line] 0)) can text) ∧
      Interleaves fileContents sources lines ∧
      ∀ before rest, sources = before ++ rest → ∀ index file, fileContents[index]? = some file →
        before.count index < file.length → ∀ other,
          before.count other ≤ before.count index + 1 := by
  obtain ⟨sources, lines, printed, interleaves, balanced⟩ :=
    random_loop_exact can numbers (.initial fileContents) [] (initial_even fileContents)
      (initial_left fileContents full)
  exact ⟨sources, lines, printed, interleaves, balanced⟩

/-- Two files in whatever order, of two lines and of one. -/
theorem two_files_interleave : ∃ sources lines,
    randomLog vcan0 id [["a".toList, "b".toList], ["c".toList]] =
        .ok (lines.mapIdx fun line text => logLine (.finite false (tick^[line] 0)) vcan0 text) ∧
      Interleaves [["a".toList, "b".toList], ["c".toList]] sources lines ∧
      ∀ before rest, sources = before ++ rest → ∀ index file,
        [["a".toList, "b".toList], ["c".toList]][index]? = some file →
          before.count index < file.length → ∀ other,
            before.count other ≤ before.count index + 1 :=
  random_log_interleaves vcan0 id _ (by decide)

/-- The log is written if and only if every file has lines; otherwise the logger fails
with an index error.

Proof: with lines in every file the log is written, as above. An empty file is due in
the first round and is drawn in it at the latest, and nothing else can fail before. -/
theorem random_log_fails_iff (can : Interface) (numbers : Nat → Nat)
    (fileContents : List (List Text)) :
    randomLog can numbers fileContents = .error .indexError ↔ [] ∈ fileContents := by
  constructor
  · intro failed
    by_contra full
    obtain ⟨_, _, printed, _⟩ := random_loop_exact can numbers (.initial fileContents) []
      (initial_even fileContents) (initial_left fileContents full)
    rw [randomLog, printed] at failed
    cases failed
  · intro member
    obtain ⟨index, empty⟩ := List.getElem?_of_mem member
    have inside := (List.getElem?_eq_some_iff.mp empty).1
    exact random_loop_fails can numbers (.initial fileContents) [] index
      (initial_even fileContents) (List.mem_range.mpr inside) empty

end EventRecorder.RandomLog
