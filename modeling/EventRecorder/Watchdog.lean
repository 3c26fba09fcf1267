import EventRecorder.Runs
import Mathlib.Tactic.Common

/-!
# The watchdog

A thread answers by adding one to its keep-alive counter. In each round
`safeguard_check_responce` compares the counter of every slot with the value it saw
last. A slot whose counter has moved on gets a new snapshot; a slot whose counter
has not counts a tick and is restarted when it has more of them than its leniency.

The comparison, the load and the store are steps of their own, between which any
thread may answer. The snapshot goes through `tmp`, an `int`. Nothing is read
between the store for one slot and the comparison for the next, and the pause
between two rounds is the step behind the last slot.
-/

namespace EventRecorder.Watchdog

/-- The number of slots and `safeguard.leniency`, the ticks that each may have. -/
structure Config where
  size : Nat
  leniency : Nat → BitVec 64

/-- Where `safeguard_check_responce` is: before the comparison for a slot, before
the load, or before the store of the loaded value. -/
inductive Pc where
  | comparing (k : Nat)
  | loading (k : Nat)
  | storing (k : Nat) (tmp : BitVec 32)
  deriving DecidableEq, Repr

/-- `safeguard.keep_alive` and `safeguard.tickcount`. Of the two elements of
`keep_alive[k]` the first is the snapshot and the second the counter. -/
structure Watch where
  keepAlive : Nat → Fin 2 → BitVec 64
  tickcount : Nat → BitVec 64
  pc : Pc

/-- The value of a slot's counter that was seen last. -/
@[simp] def Watch.seen (watch : Watch) (k : Nat) : BitVec 64 := watch.keepAlive k 0

/-- The keep-alive counter of a slot, which its thread counts up. -/
@[simp] def Watch.counter (watch : Watch) (k : Nat) : BitVec 64 := watch.keepAlive k 1

/-- Before the first round. The counters start with the values of their snapshots. -/
def start (counters : Nat → BitVec 64) : Watch := ⟨fun k _ => counters k, fun _ => 0, .comparing 0⟩

/-- Write one element of `keep_alive[k]`, the snapshot or the counter. -/
def Watch.put (watch : Watch) (k : Nat) (i : Fin 2) (value : BitVec 64) : Watch :=
  { watch with keepAlive := fun slot half =>
      if slot = k ∧ half = i then value else watch.keepAlive slot half }

/-- The counter of a slot has moved on since its snapshot: the two are not the same. -/
def Watch.Answered (watch : Watch) (k : Nat) : Prop := watch.seen k ≠ watch.counter k

instance (watch : Watch) (k : Nat) : Decidable (watch.Answered k) :=
  inferInstanceAs (Decidable (_ ≠ _))

/-- The slot has more ticks than its leniency, the one of this round included. -/
def Expires (config : Config) (watch : Watch) (k : Nat) : Prop :=
  config.leniency k < watch.tickcount k + 1

instance (config : Config) (watch : Watch) (k : Nat) : Decidable (Expires config watch k) :=
  inferInstanceAs (Decidable (_ < _))

/-- The next step of `safeguard_check_responce`. Comparing, loading and storing are
steps of their own, between which threads may answer. -/
def safeguardCheckResponce (config : Config) (watch : Watch) : Watch :=
  match watch.pc with
  | .comparing k =>
    if k < config.size then
      if watch.Answered k then { watch with pc := .loading k }
      else { watch with
        tickcount := Function.update watch.tickcount k
          (if Expires config watch k then 0 else watch.tickcount k + 1)
        pc := .comparing (k + 1) }
    else { watch with pc := .comparing 0 }
  | .loading k => { watch with pc := .storing k ((watch.counter k).setWidth 32) }
  | .storing k tmp => { watch.put k 0 (tmp.signExtend 64) with pc := .comparing (k + 1) }

/-- `safeguard_update_keep_alive`, for the slot that the search of the handler has ended
at. -/
def safeguardUpdateKeepAlive (tid : Nat) (watch : Watch) : Watch :=
  watch.put tid 1 (watch.counter tid + 1)

/-- A thread answers, or the watchdog takes its next step. -/
inductive Event where
  | respond (tid : Nat)
  | check
  deriving DecidableEq, Repr

/-- The state after an event. -/
def next (config : Config) (watch : Watch) : Event → Watch
  | .respond tid => safeguardUpdateKeepAlive tid watch
  | .check => safeguardCheckResponce config watch

/-- What a round finds a slot to be. A slot that is restarted is silent too. -/
inductive Verdict where
  | answered
  | silent
  | restarted
  deriving DecidableEq, Repr

/-- The slot a comparison is about, and its verdict. Other steps have none. -/
def verdict (config : Config) (watch : Watch) : Event → List (Nat × Verdict)
  | .respond _ => []
  | .check =>
    match watch.pc with
    | .comparing k =>
      if k < config.size then
        [(k, if watch.Answered k then .answered
          else if Expires config watch k then .restarted else .silent)]
      else []
    | _ => []

/-- The verdicts on a slot, one for each round that has come to it. -/
def verdicts (config : Config) (counters : Nat → BitVec 64) (k : Nat) (events : List Event) :
    List Verdict :=
  ((Runs.emitted (next config) (verdict config) (start counters) events).filter
    fun found => found.1 = k).map Prod.snd

/-! ## Restarts -/

/-- A round that finds a slot answering has counted no tick of it before. -/
def Uninterrupted (config : Config) (watch : Watch) : Event → Prop
  | .respond _ => True
  | .check => ∀ found ∈ verdict config watch .check, found.2 = .answered →
      watch.tickcount found.1 = 0

instance (config : Config) (watch : Watch) (event : Event) :
    Decidable (Uninterrupted config watch event) := by
  cases event with
  | respond tid => exact .isTrue trivial
  | check => exact inferInstanceAs (Decidable (∀ _ ∈ _, _))

/-- In each round a slot is restarted only if it was silent, and not restarted, in so many
rounds immediately before as its leniency says; and a slot that answers in at least one of
that many consecutive rounds and one more is never restarted. -/
def RestartsOnlySilent (config : Config) (counters : Nat → BitVec 64) (events : List Event) :
    Prop :=
  ∀ k,
    (∀ before rest, verdicts config counters k events = before ++ .restarted :: rest →
      List.replicate (config.leniency k).toNat .silent <:+ before) ∧
    ((∀ rounds, rounds <:+: verdicts config counters k events →
        rounds.length = (config.leniency k).toNat + 1 → .answered ∈ rounds) →
      .restarted ∉ verdicts config counters k events)

/-- The verdicts that one event adds for a slot: one, if it is a comparison of this
slot. -/
def found (config : Config) (watch : Watch) (event : Event) (k : Nat) : List Verdict :=
  ((verdict config watch event).filter fun found => found.1 = k).map Prod.snd

/-- One more event adds its verdict to those on a slot. -/
theorem verdicts_snoc (config : Config) (counters : Nat → BitVec 64) (k : Nat)
    (events : List Event) (event : Event) :
    verdicts config counters k (events ++ [event]) = verdicts config counters k events ++
      found config (Runs.after (next config) (start counters) events) event k := by
  simp [verdicts, found]

/-- What an event means for a slot: it is not looked at, it answers, it counts a tick, or
it is restarted and its ticks start again. -/
inductive Looks (config : Config) (watch : Watch) (event : Event) (k : Nat) : Prop where
  | elsewhere (none : found config watch event k = [])
      (ticks : (next config watch event).tickcount k = watch.tickcount k)
  | answers (only : found config watch event k = [.answered])
      (reported : event = .check ∧ (k, .answered) ∈ verdict config watch .check)
      (ticks : (next config watch event).tickcount k = watch.tickcount k)
  | ticks (only : found config watch event k = [.silent])
      (ticks : (next config watch event).tickcount k = watch.tickcount k + 1)
  | restarts (only : found config watch event k = [.restarted])
      (expires : Expires config watch k)
      (ticks : (next config watch event).tickcount k = 0)

/-- A comparison looks at its slot, every other event at none. -/
theorem event_looks (config : Config) (watch : Watch) (event : Event) (k : Nat) :
    Looks config watch event k := by
  cases event with
  | respond tid => exact .elsewhere rfl rfl
  | check =>
    cases pc : watch.pc with
    | loading slot =>
      exact .elsewhere (by simp [found, verdict, pc])
        (by simp [next, safeguardCheckResponce, pc])
    | storing slot tmp =>
      exact .elsewhere (by simp [found, verdict, pc])
        (by simp [next, safeguardCheckResponce, pc, Watch.put])
    | comparing slot =>
      by_cases inside : slot < config.size
      · by_cases own : slot = k
        · subst own
          by_cases answered : watch.Answered slot
          · exact .answers (by simp [found, verdict, pc, inside, answered])
              ⟨rfl, by simp [verdict, pc, inside, answered]⟩
              (by simp [next, safeguardCheckResponce, pc, inside, answered])
          · by_cases expires : Expires config watch slot
            · exact .restarts (by simp [found, verdict, pc, inside, answered, expires]) expires
                (by simp [next, safeguardCheckResponce, pc, inside, answered, expires])
            · exact .ticks (by simp [found, verdict, pc, inside, answered, expires])
                (by simp [next, safeguardCheckResponce, pc, inside, answered, expires])
        · refine .elsewhere (by simp [found, verdict, pc, inside, own]) ?_
          by_cases answered : watch.Answered slot
          · simp [next, safeguardCheckResponce, pc, inside, answered]
          · simp [next, safeguardCheckResponce, pc, inside, answered,
              Function.update_of_ne (Ne.symm own)]
      · exact .elsewhere (by simp [found, verdict, pc, inside])
          (by simp [next, safeguardCheckResponce, pc, inside])

/-- A restart in a list of verdicts follows so many silent rounds, with nothing between
them. -/
def Persistent (leniency : Nat) (rounds : List Verdict) : Prop :=
  ∀ before rest, rounds = before ++ .restarted :: rest →
    List.replicate leniency .silent <:+ before

/-- Another verdict keeps the rounds persistent, if it is no restart or follows enough
silent rounds. -/
theorem persistent_snoc (leniency : Nat) (rounds : List Verdict) (last : Verdict)
    (persistent : Persistent leniency rounds)
    (restart : last = .restarted → List.replicate leniency .silent <:+ rounds) :
    Persistent leniency (rounds ++ [last]) := by
  intro before rest split
  rcases List.eq_nil_or_concat rest with none | ⟨earlier, newest, rfl⟩
  · subst none
    obtain ⟨same, restarted⟩ := List.append_inj' split rfl
    exact same ▸ restart (List.head_eq_of_cons_eq restarted)
  · rw [List.concat_eq_append, ← List.cons_append, ← List.append_assoc] at split
    exact persistent before earlier (List.append_inj' split rfl).1

/-- Where every so many consecutive rounds contain an answer, none is a restart. -/
theorem persistent_answered (leniency : Nat) (rounds : List Verdict)
    (persistent : Persistent leniency rounds)
    (answers : ∀ part, part <:+: rounds → part.length = leniency + 1 → .answered ∈ part) :
    .restarted ∉ rounds := by
  intro restarted
  obtain ⟨before, rest, split⟩ := List.append_of_mem restarted
  obtain ⟨earlier, silent⟩ := persistent before rest split
  have part : List.replicate leniency .silent ++ [.restarted] <:+: rounds :=
    ⟨earlier, rest, by rw [split, ← silent]; simp⟩
  have answered := answers _ part (by simp)
  simp [List.mem_replicate] at answered

/-- What holds of a slot: its restarts so far followed enough silent rounds, and its ticks
are silent rounds immediately before. -/
structure Counted (config : Config) (rounds : List Verdict) (watch : Watch) (k : Nat) : Prop where
  persistent : Persistent (config.leniency k).toNat rounds
  silent : List.replicate (watch.tickcount k).toNat .silent <:+ rounds

/-- A slot that has expired had as many ticks before as its leniency. -/
theorem leniency_le (config : Config) (watch : Watch) (k : Nat)
    (expires : Expires config watch k) :
    (config.leniency k).toNat ≤ (watch.tickcount k).toNat := by
  have less := BitVec.lt_def.mp expires
  have bound : (watch.tickcount k + 1).toNat ≤ (watch.tickcount k).toNat + 1 := by
    rw [BitVec.toNat_add]
    exact Nat.mod_le _ _
  omega

/-- The last silent rounds among more of them. -/
theorem replicate_suffix (fewer more : Nat) (rounds : List Verdict) (le : fewer ≤ more)
    (silent : List.replicate more Verdict.silent <:+ rounds) :
    List.replicate fewer Verdict.silent <:+ rounds := by
  refine List.IsSuffix.trans ⟨List.replicate (more - fewer) .silent, ?_⟩ silent
  rw [List.replicate_append_replicate, Nat.sub_add_cancel le]

/-- An event keeps the account of a slot, if it does not interrupt its ticks. -/
theorem event_counted (config : Config) (watch : Watch) (event : Event) (k : Nat)
    (rounds : List Verdict) (counted : Counted config rounds watch k)
    (uninterrupted : Uninterrupted config watch event) :
    Counted config (rounds ++ found config watch event k) (next config watch event) k := by
  obtain ⟨persistent, silent⟩ := counted
  cases event_looks config watch event k with
  | elsewhere none ticks =>
    rw [none, List.append_nil]
    exact ⟨persistent, by rwa [ticks]⟩
  | answers only reported ticks =>
    obtain ⟨rfl, answered⟩ := reported
    have zero : watch.tickcount k = 0 := uninterrupted _ answered rfl
    rw [only]
    refine ⟨persistent_snoc _ _ _ persistent nofun, ?_⟩
    rw [ticks, zero]
    exact List.nil_suffix
  | ticks only ticks =>
    rw [only]
    refine ⟨persistent_snoc _ _ _ persistent nofun, ?_⟩
    have bound : (watch.tickcount k + 1).toNat ≤ (watch.tickcount k).toNat + 1 := by
      rw [BitVec.toNat_add]
      exact Nat.mod_le _ _
    obtain ⟨earlier, rfl⟩ := silent
    rw [ticks]
    apply replicate_suffix _ ((watch.tickcount k).toNat + 1) _ bound
    exact ⟨earlier, by rw [List.replicate_succ', List.append_assoc]⟩
  | restarts only expires ticks =>
    rw [only]
    refine ⟨persistent_snoc _ _ _ persistent fun _ => ?_, ?_⟩
    · exact replicate_suffix _ _ _ (leniency_le config watch k expires) silent
    · rw [ticks]
      exact List.nil_suffix

/-- In every run in which no slot answers while it has ticks, restarts follow enough
silent rounds.

Proof: the ticks of a slot are its last silent rounds in a row, which every event keeps
that does not interrupt them. A slot that expires has as many as its leniency. -/
theorem restarts_only_silent (config : Config) (counters : Nat → BitVec 64)
    (events : List Event)
    (uninterrupted : Runs.EveryStep (next config) (start counters) events
      fun _ watch event => Uninterrupted config watch event) :
    RestartsOnlySilent config counters events := by
  intro k
  have counted := Runs.invariant_of_every
    (fun before watch => watch = Runs.after (next config) (start counters) before ∧
      Counted config (verdicts config counters k before) watch k)
    (fun _ watch event => Uninterrupted config watch event)
    ⟨rfl, fun before rest split => by simp [verdicts] at split, List.nil_suffix⟩
    (by
      rintro before _ event ⟨rfl, counted⟩ calm
      refine ⟨by simp, ?_⟩
      rw [verdicts_snoc]
      exact event_counted config _ event k _ counted calm)
    events uninterrupted events [] (List.append_nil _).symm
  exact ⟨counted.2.persistent, persistent_answered _ _ counted.2.persistent⟩

/-- One slot that may be silent once. -/
def lenient : Config := ⟨1, fun _ => 1⟩

/-- The slot is silent in two rounds in a row. -/
theorem silent_slot_restarted :
    RestartsOnlySilent lenient (fun _ => 0) [.check, .check, .check] := by
  apply restarts_only_silent
  decide

/-- The slot answers between two silent rounds and is restarted in the second. -/
theorem answering_slot_restarted :
    ¬ RestartsOnlySilent lenient (fun _ => 0)
      [.check, .check, .respond 0, .check, .check, .check, .check, .check] := by
  intro only
  have silent := (only 0).1 [.silent, .answered] [] (by decide)
  revert silent
  decide

end EventRecorder.Watchdog
