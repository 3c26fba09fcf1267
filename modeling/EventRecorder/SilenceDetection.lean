import EventRecorder.Watchdog
import Mathlib.Data.BitVec
import Mathlib.Algebra.Group.Nat.Defs

/-!
# Silence detection

A round should count a tick for a slot exactly when its thread has not answered since
the snapshot of the slot was taken, and a round that sees an answer should leave the
value of the counter it read as the new snapshot.

The answers since each snapshot are counted beside the system, without a bound, and
the value read last is kept beside it; neither has any influence on it. The counters
are numbers of 64 bits, and a snapshot goes through one of 32 bits with a sign.
-/

namespace EventRecorder.SilenceDetection

open Watchdog

/-- The watchdog, the answers of each slot since its snapshot was taken, and the value
of the last load. -/
structure Traced where
  watch : Watch
  answers : Nat → Nat
  read : BitVec 64

/-- Before the first round, and before any answer. The snapshots are those the watchdog
starts with. -/
def Traced.start (counters : Nat → BitVec 64) : Traced := ⟨Watchdog.start counters, fun _ => 0, 0⟩

/-- The system after an event, with its account. A load takes a snapshot. -/
def next (config : Config) (traced : Traced) (event : Event) : Traced :=
  let watch := Watchdog.next config traced.watch event
  match event with
  | .respond tid =>
    { traced with
      watch := watch
      answers := Function.update traced.answers tid (traced.answers tid + 1) }
  | .check =>
    match traced.watch.pc with
    | .loading k => ⟨watch, Function.update traced.answers k 0, traced.watch.counter k⟩
    | _ => { traced with watch := watch }

/-- The account has no influence on the system, so that what holds of traced runs holds
of all. -/
theorem run_watch (config : Config) (traced : Traced) (events : List Event) :
    (Runs.after (next config) traced events).watch =
      Runs.after (Watchdog.next config) traced.watch events := by
  induction events generalizing traced with
  | nil => rfl
  | cons event rest inductionHypothesis =>
    have step : (next config traced event).watch = Watchdog.next config traced.watch event := by
      cases event with
      | respond tid => rfl
      | check => cases pc : traced.watch.pc <;> simp [next, pc]
    rw [Runs.after_cons, Runs.after_cons, inductionHypothesis, step]

/-- A comparison counts a tick exactly if its slot has not answered since its snapshot, and
a store leaves the value that was read. -/
def Detects (config : Config) (traced : Traced) : Event → Prop
  | .respond _ => True
  | .check =>
    match traced.watch.pc with
    | .comparing k => k < config.size →
      (verdict config traced.watch .check ≠ [(k, .answered)] ↔ traced.answers k = 0)
    | .loading _ => True
    | .storing k _ => (next config traced .check).watch.seen k = traced.read

/-- A slot has not answered a multiple of 2 ^ 64 times since its snapshot, and a value that
was read is one that an `int` holds, as it is or less 2 ^ 64. -/
def Fits (config : Config) (traced : Traced) : Event → Prop
  | .respond _ => True
  | .check =>
    match traced.watch.pc with
    | .comparing k => k < config.size → 2 ^ 64 ∣ traced.answers k → traced.answers k = 0
    | .loading _ => True
    | .storing _ _ => traced.read.toNat < 2 ^ 31 ∨ 2 ^ 64 - 2 ^ 31 ≤ traced.read.toNat

/-- The value a slot's snapshot has, or gets with the next store. -/
def Traced.snapshot (traced : Traced) (k : Nat) : BitVec 64 :=
  match traced.watch.pc with
  | .storing slot _ => if slot = k then traced.read else traced.watch.seen k
  | _ => traced.watch.seen k

/-- Every counter is its snapshot and the answers since, and `tmp` is what was read,
without its upper half. -/
structure Synchronous (traced : Traced) : Prop where
  counters : ∀ k, traced.watch.counter k =
    traced.snapshot k + BitVec.ofNat 64 (traced.answers k)
  tmp : ∀ k tmp, traced.watch.pc = .storing k tmp → tmp = traced.read.setWidth 32

/-- An `int` holds the values next to zero on both sides, as an unsigned number of 64
bits. -/
theorem sign_extend_eq_iff (value : BitVec 64) :
    (value.setWidth 32).signExtend 64 = value ↔
      value.toNat < 2 ^ 31 ∨ 2 ^ 64 - 2 ^ 31 ≤ value.toNat := by
  have bound := value.isLt
  rw [← BitVec.toInt_inj, BitVec.toInt_signExtend_of_le (by decide), BitVec.toInt_setWidth,
    BitVec.toInt_eq_toNat_cond]
  simp only [Int.bmod]
  split_ifs <;> omega

/-- A counter has the value of its snapshot when the answers since are a multiple of 2 ^ 64. -/
theorem add_answers_eq_iff (value : BitVec 64) (answers : Nat) :
    value = value + BitVec.ofNat 64 answers ↔ 2 ^ 64 ∣ answers := by
  have bound := value.isLt
  rw [← BitVec.toNat_inj, BitVec.toNat_add, BitVec.toNat_ofNat]
  omega

/-- A step detects silence exactly when it fits, where the accounts are synchronous. -/
theorem detects_iff (config : Config) (traced : Traced) (event : Event)
    (synchronous : Synchronous traced) :
    Detects config traced event ↔ Fits config traced event := by
  obtain ⟨counters, held⟩ := synchronous
  cases event with
  | respond tid => exact Iff.rfl
  | check =>
    cases pc : traced.watch.pc with
    | loading k => simp [Detects, Fits, pc]
    | storing k tmp =>
      have stored : (next config traced .check).watch.seen k =
          (traced.read.setWidth 32).signExtend 64 := by
        simp [next, Watchdog.next, safeguardCheckResponce, pc, Watch.put, held k tmp pc]
      simp only [Detects, Fits, pc, stored]
      exact sign_extend_eq_iff traced.read
    | comparing k =>
      simp only [Detects, Fits, pc]
      apply imp_congr_right
      intro inside
      have answered : traced.watch.Answered k ↔ ¬ 2 ^ 64 ∣ traced.answers k := by
        have counter := counters k
        simp only [Traced.snapshot, pc] at counter
        rw [Watch.Answered, counter, ne_eq, add_answers_eq_iff]
      have ticks : verdict config traced.watch .check ≠ [(k, .answered)] ↔
          2 ^ 64 ∣ traced.answers k := by
        by_cases moved : traced.watch.Answered k
        · simpa [verdict, pc, inside, moved] using answered.mp moved
        · have multiple := not_not.mp (answered.not.mp moved)
          simp only [verdict, pc, if_pos inside, if_neg moved, multiple, iff_true]
          split_ifs <;> simp
      rw [ticks]
      refine ⟨Iff.mp, fun only => ⟨only, ?_⟩⟩
      rintro none
      rw [none]
      exact Nat.dvd_zero _

/-- An answer is counted in both accounts, whatever the watchdog is at. -/
theorem respond_synchronous (config : Config) (traced : Traced) (tid : Nat)
    (synchronous : Synchronous traced) : Synchronous (next config traced (.respond tid)) := by
  obtain ⟨counters, held⟩ := synchronous
  refine ⟨fun k => ?_, held⟩
  have same : (next config traced (.respond tid)).snapshot k = traced.snapshot k := by
    simp [Traced.snapshot, next, Watchdog.next, safeguardUpdateKeepAlive, Watch.put]
  rw [same]
  by_cases own : k = tid
  · subst own
    have more : BitVec.ofNat 64 (traced.answers k + 1) =
        BitVec.ofNat 64 (traced.answers k) + 1 := BitVec.ofNat_add ..
    have counter : traced.watch.keepAlive k 1 = _ := counters k
    simp [next, Watchdog.next, safeguardUpdateKeepAlive, Watch.put, counter, more,
      BitVec.add_assoc]
  · simpa [next, Watchdog.next, safeguardUpdateKeepAlive, Watch.put, own] using counters k

/-- A comparison leaves counters and snapshots alone, whatever it finds. -/
theorem compare_synchronous (config : Config) (traced : Traced) (k : Nat)
    (pc : traced.watch.pc = .comparing k) (synchronous : Synchronous traced) :
    Synchronous (next config traced .check) := by
  have further : ∀ slot tmp, (next config traced .check).watch.pc ≠ .storing slot tmp := by
    intro slot tmp
    simp only [next, Watchdog.next, safeguardCheckResponce, pc]
    split_ifs <;> simp
  have kept : (next config traced .check).watch.keepAlive = traced.watch.keepAlive := by
    simp only [next, Watchdog.next, safeguardCheckResponce, pc]
    split_ifs <;> rfl
  have answers : (next config traced .check).answers = traced.answers := by simp [next, pc]
  refine ⟨fun slot => ?_, fun slot tmp stores => absurd stores (further slot tmp)⟩
  have counter := synchronous.counters slot
  simp only [Traced.snapshot, pc] at counter
  have snapshot : (next config traced .check).snapshot slot = traced.watch.seen slot := by
    unfold Traced.snapshot
    split
    · exact absurd ‹_› (further _ _)
    · rw [Watch.seen, kept, Watch.seen]
  rw [snapshot, answers, ← counter, Watch.counter, kept, Watch.counter]

/-- A load takes the counter for the snapshot, no answer since. -/
theorem load_synchronous (config : Config) (traced : Traced) (k : Nat)
    (pc : traced.watch.pc = .loading k) (synchronous : Synchronous traced) :
    Synchronous (next config traced .check) := by
  constructor
  · intro slot
    have counter := synchronous.counters slot
    simp only [Traced.snapshot, pc] at counter
    by_cases own : k = slot
    · subst own
      simp [next, Watchdog.next, safeguardCheckResponce, pc, Traced.snapshot]
    · simpa [next, Watchdog.next, safeguardCheckResponce, pc, Traced.snapshot, own, Ne.symm own]
        using counter
  · intro slot tmp stores
    simp only [next, Watchdog.next, safeguardCheckResponce, pc, Pc.storing.injEq] at stores ⊢
    exact stores.2.symm

/-- A store writes what was read, if an `int` holds it. -/
theorem store_synchronous (config : Config) (traced : Traced) (k : Nat) (tmp : BitVec 32)
    (pc : traced.watch.pc = .storing k tmp) (synchronous : Synchronous traced)
    (exact : tmp.signExtend 64 = traced.read) : Synchronous (next config traced .check) := by
  constructor
  · intro slot
    have counter := synchronous.counters slot
    simp only [Traced.snapshot, pc] at counter
    by_cases own : k = slot
    · subst own
      simpa [next, Watchdog.next, safeguardCheckResponce, pc, Traced.snapshot, Watch.put, exact]
        using counter
    · simpa [next, Watchdog.next, safeguardCheckResponce, pc, Traced.snapshot, Watch.put, own,
        Ne.symm own] using counter
  · intro slot other stores
    simp [next, Watchdog.next, safeguardCheckResponce, pc] at stores

/-- A step of the watchdog that fits keeps the accounts, whichever of the three it is. -/
theorem check_synchronous (config : Config) (traced : Traced) (synchronous : Synchronous traced)
    (fits : Fits config traced .check) : Synchronous (next config traced .check) := by
  cases pc : traced.watch.pc with
  | comparing k => exact compare_synchronous config traced k pc synchronous
  | loading k => exact load_synchronous config traced k pc synchronous
  | storing k tmp =>
    have exact : tmp.signExtend 64 = traced.read := by
      rw [synchronous.tmp k tmp pc]
      exact (sign_extend_eq_iff traced.read).mpr (by simpa [Fits, pc] using fits)
    exact store_synchronous config traced k tmp pc synchronous exact

/-- From any counters and in every interleaving, each step of the watchdog detects
silence exactly if and only if each fits.

Proof: `Synchronous` is the invariant. Where it holds, detecting exactly and fitting are
the same, and a step that fits keeps it, as does every answer. -/
theorem detects_silence_iff (config : Config) (counters : Nat → BitVec 64)
    (events : List Event) :
    Runs.EveryStep (next config) (.start counters) events
        (fun _ traced event => Detects config traced event) ↔
      Runs.EveryStep (next config) (.start counters) events
        fun _ traced event => Fits config traced event := by
  apply Runs.every_step_iff fun _ traced => Synchronous traced
  · exact ⟨fun k => (BitVec.add_zero _).symm, nofun⟩
  · intro _ traced event synchronous
    exact detects_iff config traced event synchronous
  · intro _ traced event synchronous fits
    cases event with
    | respond tid => exact respond_synchronous config traced tid synchronous
    | check => exact check_synchronous config traced synchronous fits

/-- The snapshot of a counter that an answer brings to 2 ^ 31 is not its value. -/
theorem long_run_undetected :
    ¬ Runs.EveryStep (next lenient) (.start fun _ => 2 ^ 31 - 1)
      [.respond 0, .check, .check, .check]
      fun _ traced event => Detects lenient traced event := by
  rw [detects_silence_iff]
  intro fits
  have store : (2 ^ 31 : BitVec 64).toNat < 2 ^ 31 ∨ 2 ^ 64 - 2 ^ 31 ≤ (2 ^ 31 : BitVec 64).toNat :=
    fits [.respond 0, .check, .check] .check [] rfl
  revert store
  decide

end EventRecorder.SilenceDetection
