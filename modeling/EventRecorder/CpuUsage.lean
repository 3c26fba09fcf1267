import EventRecorder.ExactArithmetic
import EventRecorder.Runs
import EventRecorder.SafetyStatus
import Mathlib.Data.List.Chain

/-!
# The processor's usage

`cpu_upd` reads the counters of `/proc/stat` on its first two calls and then on
every 51st. The first reading is kept for comparison; a later one updates the
usage by what has been counted since the one before, of which the idle part is a
share. Nothing guards the division: two readings with the same total leave no
usage.
-/

namespace EventRecorder.CpuUsage

open Arithmetic ExactArithmetic SafetyStatus Runs

/-- `cpu_upd` on rationals, where a quotient by zero has no value. The function is the
one of the model, at this arithmetic. -/
def checkedCpuUpd (root : ℚ → ℚ) (cpu : CpuTime (Option ℚ)) (proc : Option ProcStat) :
    CpuTime (Option ℚ) :=
  @cpuUpd (Option ℚ) (checkedArithmetic root) cpu proc

/-- The member `cpu` as `memset` leaves it, with nothing counted and nothing read. -/
def initial : CpuTime (Option ℚ) := ⟨0, 0, 0, some 0, 0⟩

/-- The time counted, as `cpu_upd` sums it: six of the counters, the idle one among
them. -/
def total (stat : ProcStat) : Int :=
  stat.user + stat.nice + stat.system + stat.idle + stat.irq + stat.softirq

/-- No counter has decreased from one reading to a later one. This is asked of the
readings, as the code takes it for granted. -/
structure NotBefore (earlier later : ProcStat) : Prop where
  user : earlier.user ≤ later.user
  nice : earlier.nice ≤ later.nice
  system : earlier.system ≤ later.system
  idle : earlier.idle ≤ later.idle
  irq : earlier.irq ≤ later.irq
  softirq : earlier.softirq ≤ later.softirq

/-- The call gets past the test of its count, and reads the counters if they can be
opened. -/
def Reads (cpu : CpuTime (Option ℚ)) : Prop := ¬ 1 < cpu.times

instance (cpu : CpuTime (Option ℚ)) : Decidable (Reads cpu) := instDecidableNot

/-- The counters a call reads, if it reads them and they can be opened: a list of one,
or of none. -/
def reading (cpu : CpuTime (Option ℚ)) (proc : Option ProcStat) : List ProcStat :=
  if Reads cpu then proc.toList else []

variable (root : ℚ → ℚ)

/-- The member `cpu` after calls, each of which may find the counters or not. -/
def cpuAfter (calls : List (Option ProcStat)) : CpuTime (Option ℚ) :=
  after (checkedCpuUpd root) initial calls

/-- The first two calls, and from then on every 51st, by the number of calls before
them. -/
def Scheduled (index : Nat) : Prop := index = 0 ∨ (index - 1) % 51 = 0

instance (index : Nat) : Decidable (Scheduled index) := instDecidableOr

/-- What there is to read on the scheduled calls, in order, which does not depend on any
state. -/
def readings (calls : List (Option ProcStat)) : List ProcStat :=
  (calls.zipIdx.filter (Scheduled ·.2)).filterMap Prod.fst

/-- A call that reads a second time divides by a time that is not zero, and the
usage is a percentage. -/
def Percentage (cpu : CpuTime (Option ℚ)) (proc : Option ProcStat) : Prop :=
  ∀ stat ∈ reading cpu proc, cpu.calcp ≠ 0 →
    total stat - cpu.ttime ≠ 0 ∧
      ∃ usage, (checkedCpuUpd root cpu proc).usage = some usage ∧ 0 ≤ usage ∧ usage ≤ 100

section Calls

variable (cpu : CpuTime (Option ℚ))

/-- A skipped call counts, and starts the count again after the fiftieth in a row. It
touches nothing else. -/
theorem cpu_skipped (proc : Option ProcStat) (skips : ¬ Reads cpu) :
    checkedCpuUpd root cpu proc =
      { cpu with times := if 52 ≤ cpu.times + 1 then 1 else cpu.times + 1 } := by
  rw [Reads, not_not] at skips
  simp [checkedCpuUpd, cpuUpd, skips]

/-- The counters cannot be opened: the call counts as one that reads and leaves the last
reading. -/
theorem cpu_unopened (reads : Reads cpu) :
    checkedCpuUpd root cpu none = { cpu with times := cpu.times + 1 } := by
  rw [Reads] at reads
  simp [checkedCpuUpd, cpuUpd, reads]

/-- The first reading is kept, to be compared with, and no usage is computed from it. -/
theorem cpu_primed (stat : ProcStat) (reads : Reads cpu) (fresh : cpu.calcp = 0) :
    checkedCpuUpd root cpu (some stat) =
      { cpu with times := cpu.times + 1, ttime := total stat, itime := stat.idle, calcp := 1 } := by
  rw [Reads] at reads
  simp [checkedCpuUpd, cpuUpd, reads, fresh, total]

/-- The share of the time between two readings that was not idle, in percent, from the
two differences. -/
def share (timeDiff idleDiff : Int) : ℚ := 100 * ((timeDiff - idleDiff : Int) : ℚ) / timeDiff

/-- A later reading updates the usage. The quotient is checked: when no time has passed,
the usage has no value afterwards. -/
theorem cpu_updated (stat : ProcStat) (reads : Reads cpu) (primed : cpu.calcp ≠ 0) :
    checkedCpuUpd root cpu (some stat) =
      { cpu with
        times := cpu.times + 1
        usage := if total stat - cpu.ttime = 0 then none
          else some (share (total stat - cpu.ttime) (stat.idle - cpu.itime))
        ttime := total stat
        itime := stat.idle } := by
  have quotient (time idle : Int) :
      @div (Option ℚ) (checkedArithmetic root)
        (@mul (Option ℚ) (checkedArithmetic root)
          (@lit (Option ℚ) (checkedArithmetic root) 100)
          (@lit (Option ℚ) (checkedArithmetic root) ((time - idle : Int) : ℚ)))
        (@lit (Option ℚ) (checkedArithmetic root) (time : ℚ)) =
      if time = 0 then none else some (share time idle) := by
    change (if ((time : ℚ) : ℚ) = 0 then none
      else some ((100 : ℚ) * ((time - idle : Int) : ℚ) / (time : ℚ))) = _
    simp only [Int.cast_eq_zero, share]
  rw [Reads] at reads
  simp only [checkedCpuUpd, cpuUpd, reads, primed, if_false, quotient]
  rfl

end Calls

/-- A call that gets past the test is influenced by the counters; one that does not is
not. -/
theorem reads_iff (cpu : CpuTime (Option ℚ)) :
    Reads cpu ↔ ∃ proc, checkedCpuUpd root cpu proc ≠ checkedCpuUpd root cpu none := by
  constructor
  · intro reads
    refine ⟨some ⟨cpu.ttime + 1, 0, 0, 0, 0, 0, 0⟩, ?_⟩
    intro same
    have times := congrArg CpuTime.ttime same
    rw [cpu_unopened root cpu reads] at times
    by_cases primed : cpu.calcp = 0
    · rw [cpu_primed root cpu _ reads primed] at times
      simp [total] at times
    · rw [cpu_updated root cpu _ reads primed] at times
      simp [total] at times
  · rintro ⟨proc, influenced⟩
    by_contra skips
    exact influenced (by rw [cpu_skipped root cpu proc skips, cpu_skipped root cpu none skips])

/-- The count after a call that reads, whichever of its cases it is. -/
theorem times_read (cpu : CpuTime (Option ℚ)) (proc : Option ProcStat) (reads : Reads cpu) :
    (checkedCpuUpd root cpu proc).times = cpu.times + 1 := by
  cases proc with
  | none => rw [cpu_unopened root cpu reads]
  | some stat =>
    by_cases primed : cpu.calcp = 0
    · rw [cpu_primed root cpu stat reads primed]
    · rw [cpu_updated root cpu stat reads primed]

/-- One more call is made on what the calls before it left. -/
theorem cpu_after_snoc (calls : List (Option ProcStat)) (proc : Option ProcStat) :
    cpuAfter root (calls ++ [proc]) = checkedCpuUpd root (cpuAfter root calls) proc := by
  simp [cpuAfter]

/-- The count of calls, which starts again behind fifty skipped ones. It is determined
by the number of calls alone. -/
theorem times_after (calls : List (Option ProcStat)) :
    (cpuAfter root calls).times =
      if calls.length = 0 then 0 else 1 + (calls.length - 1) % 51 := by
  induction calls using List.reverseRecOn with
  | nil => rfl
  | append_singleton calls proc inductionHypothesis =>
    rw [cpu_after_snoc, List.length_append, List.length_singleton, if_neg (Nat.succ_ne_zero _),
      Nat.add_sub_cancel]
    by_cases reads : Reads (cpuAfter root calls)
    · rw [times_read root _ _ reads]
      rw [Reads, inductionHypothesis] at reads
      rw [inductionHypothesis]
      split_ifs at reads ⊢ <;> omega
    · rw [cpu_skipped root _ _ reads]
      rw [Reads, inductionHypothesis] at reads
      dsimp only
      rw [inductionHypothesis]
      split_ifs at reads ⊢ <;> omega

/-- Readings are taken on the first two calls and then on every 51st, whatever the
readings are. -/
theorem reads_after_iff (calls : List (Option ProcStat)) :
    Reads (cpuAfter root calls) ↔ Scheduled calls.length := by
  rw [Reads, times_after, Scheduled]
  split_ifs <;> omega

/-- One more call adds what it reads, which connects the readings on schedule with those
a call takes. -/
theorem readings_snoc (calls : List (Option ProcStat)) (proc : Option ProcStat) :
    readings (calls ++ [proc]) = readings calls ++ reading (cpuAfter root calls) proc := by
  rw [readings, List.zipIdx_append, List.filter_append, List.filterMap_append, reading, readings]
  congr 1
  by_cases scheduled : Scheduled calls.length
  · rw [if_pos ((reads_after_iff root calls).mpr scheduled)]
    cases proc <;> simp [scheduled]
  · rw [if_neg (mt (reads_after_iff root calls).mp scheduled)]
    simp [scheduled]

/-- What is kept of the last reading: its total and its idle time, and that there was
one at all. -/
def Kept : Option ProcStat → CpuTime (Option ℚ) → Prop
  | none, cpu => cpu.calcp = 0
  | some stat, cpu => cpu.calcp ≠ 0 ∧ cpu.ttime = total stat ∧ cpu.itime = stat.idle

/-- A call keeps its own reading, if it has one, and otherwise that of before. -/
theorem kept_next (last : Option ProcStat) (cpu : CpuTime (Option ℚ)) (proc : Option ProcStat)
    (kept : Kept last cpu) :
    Kept ((reading cpu proc).getLast?.or last) (checkedCpuUpd root cpu proc) := by
  rw [reading]
  by_cases reads : Reads cpu
  · rw [if_pos reads]
    cases proc with
    | none =>
      rw [cpu_unopened root cpu reads]
      cases last <;> exact kept
    | some stat =>
      by_cases primed : cpu.calcp = 0
      · rw [cpu_primed root cpu stat reads primed]
        exact ⟨Nat.one_ne_zero, rfl, rfl⟩
      · rw [cpu_updated root cpu stat reads primed]
        exact ⟨primed, rfl, rfl⟩
  · rw [if_neg reads, cpu_skipped root cpu proc reads]
    cases last <;> exact kept

/-- After any calls the last of their readings is kept, by induction on the calls. -/
theorem kept_after (calls : List (Option ProcStat)) :
    Kept (readings calls).getLast? (cpuAfter root calls) := by
  induction calls using List.reverseRecOn with
  | nil => rfl
  | append_singleton calls proc kept =>
    rw [readings_snoc root, cpu_after_snoc, List.getLast?_append]
    exact kept_next root _ _ proc kept

/-- A share of a time that has passed is a percentage, as the idle part is neither
negative nor more than all of it. -/
theorem share_bounds (timeDiff idleDiff : Int) (passed : 0 < timeDiff) (nonneg : 0 ≤ idleDiff)
    (part : idleDiff ≤ timeDiff) : 0 ≤ share timeDiff idleDiff ∧ share timeDiff idleDiff ≤ 100 := by
  have time : (0 : ℚ) < timeDiff := by exact_mod_cast passed
  have busy : (0 : ℚ) ≤ (timeDiff - idleDiff : Int) := by exact_mod_cast Int.sub_nonneg.mpr part
  have most : ((timeDiff - idleDiff : Int) : ℚ) ≤ timeDiff := by
    exact_mod_cast Int.sub_le_self _ nonneg
  rw [share, div_le_iff₀ time]
  constructor
  · positivity
  · linarith

/-- A second reading leaves a percentage exactly if time has passed since the last,
because otherwise the quotient is by zero. -/
theorem percentage_updated_iff (earlier later : ProcStat) (cpu : CpuTime (Option ℚ))
    (kept : Kept (some earlier) cpu) (reads : Reads cpu) (counted : NotBefore earlier later) :
    Percentage root cpu (some later) ↔ total earlier < total later := by
  obtain ⟨primed, ttime, itime⟩ := kept
  have one : reading cpu (some later) = [later] := if_pos reads
  rw [Percentage, one, List.forall_mem_singleton, cpu_updated root cpu later reads primed, ttime,
    itime]
  have user := counted.user
  have nice := counted.nice
  have system := counted.system
  have idle := counted.idle
  have irq := counted.irq
  have softirq := counted.softirq
  constructor
  · intro percentage
    have passed := (percentage primed).1
    simp only [total] at passed ⊢
    omega
  · intro less _
    have passed : 0 < total later - total earlier := Int.sub_pos.mpr less
    refine ⟨passed.ne', _, if_neg passed.ne', ?_⟩
    apply share_bounds _ _ passed (Int.sub_nonneg.mpr idle)
    simp only [total]
    omega

/-- Without a reading to compare with, a call leaves the usage alone, and this is the
same law for calls of every kind. -/
theorem percentage_iff (last : Option ProcStat) (cpu : CpuTime (Option ℚ))
    (proc : Option ProcStat) (kept : Kept last cpu)
    (counted : ∀ earlier ∈ last, ∀ later ∈ (reading cpu proc).head?, NotBefore earlier later) :
    Percentage root cpu proc ↔
      ∀ earlier ∈ last, ∀ later ∈ (reading cpu proc).head?, total earlier < total later := by
  by_cases reads : Reads cpu
  · cases proc with
    | none => simp [Percentage, reading]
    | some stat =>
      have one : reading cpu (some stat) = [stat] := if_pos reads
      cases last with
      | none =>
        have fresh : cpu.calcp = 0 := kept
        simp [Percentage, fresh]
      | some earlier =>
        rw [one] at counted ⊢
        rw [percentage_updated_iff root earlier stat cpu kept reads
          (counted earlier rfl stat rfl)]
        simp
  · have none : reading cpu proc = [] := if_neg reads
    simp [Percentage, none]

/-- Every update of a run is a percentage, and the readings are those scheduled: the two
things to be known of a run. -/
structure Percentages (calls : List (Option ProcStat)) : Prop where
  scheduled : EveryStep (checkedCpuUpd root) initial calls
    fun before cpu _ => Reads cpu ↔ Scheduled before.length
  updates : EveryStep (checkedCpuUpd root) initial calls fun _ cpu proc => Percentage root cpu proc

/-- The updates of a run are percentages exactly if time has passed between all its
readings. -/
theorem updates_iff (calls : List (Option ProcStat))
    (counted : (readings calls).IsChain NotBefore) :
    EveryStep (checkedCpuUpd root) initial calls (fun _ cpu proc => Percentage root cpu proc) ↔
      (readings calls).IsChain fun earlier later => total earlier < total later := by
  induction calls using List.reverseRecOn with
  | nil => simp [every_step_nil, readings]
  | append_singleton calls proc inductionHypothesis =>
    rw [readings_snoc root] at counted ⊢
    obtain ⟨before, -, across⟩ := List.isChain_append.mp counted
    have single : (reading (cpuAfter root calls) proc).IsChain fun earlier later =>
        total earlier < total later := by
      rw [reading]
      split_ifs
      · cases proc <;> simp
      · simp
    have reached : after (checkedCpuUpd root) initial calls = cpuAfter root calls := rfl
    rw [every_step_append, every_step_cons, List.isChain_append, inductionHypothesis before,
      reached, percentage_iff root _ _ proc (kept_after root calls) across]
    simp [every_step_nil, single]

/-- For every sequence of calls whose readings never count backwards: the readings are
taken on the first two calls and then on every 51st, and every update divides by a time
that is not zero and leaves a percentage, exactly if the total has grown from each
reading to the next.

Proof: the count of calls fixes which calls read. What is kept before each call is the
reading before it, so that `percentage_iff` compares neighbours, and being a chain says
the same of all neighbours. -/
theorem percentages_iff (calls : List (Option ProcStat))
    (counted : (readings calls).IsChain NotBefore) :
    Percentages root calls ↔
      (readings calls).IsChain fun earlier later => total earlier < total later := by
  rw [← updates_iff root calls counted]
  constructor
  · exact Percentages.updates
  · intro updates
    refine ⟨?_, updates⟩
    rintro before proc rest -
    exact reads_after_iff root before

/-- Two readings with a second unit of work between them leave a percentage: four units
have passed, one of them idle. -/
theorem passing_time_percentage :
    Percentages id [some ⟨1, 0, 0, 1, 0, 0, 0⟩, some ⟨4, 0, 0, 2, 0, 0, 0⟩] := by
  have read : readings [some ⟨1, 0, 0, 1, 0, 0, 0⟩, some ⟨4, 0, 0, 2, 0, 0, 0⟩] =
      [⟨1, 0, 0, 1, 0, 0, 0⟩, ⟨4, 0, 0, 2, 0, 0, 0⟩] := rfl
  refine (percentages_iff id _ ?_).mpr ?_
  · rw [read, List.isChain_pair]
    exact ⟨by decide, by decide, by decide, by decide, by decide, by decide⟩
  · rw [read, List.isChain_pair]
    decide

/-- Two equal readings leave none, as no time has passed between them and the division
is by zero. -/
theorem equal_readings_no_percentage :
    ¬ Percentages id [some ⟨1, 0, 0, 1, 0, 0, 0⟩, some ⟨1, 0, 0, 1, 0, 0, 0⟩] := by
  intro percentages
  have last := percentages.updates [some ⟨1, 0, 0, 1, 0, 0, 0⟩] _ [] rfl
  have divided := (last ⟨1, 0, 0, 1, 0, 0, 0⟩ (List.mem_singleton.mpr rfl) Nat.one_ne_zero).1
  exact divided rfl

end EventRecorder.CpuUsage
