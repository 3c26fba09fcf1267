import EventRecorder.LoggerRoutes
import EventRecorder.ThreadTable

/-!
# The start of the recorder

`safeguard_init` starts the threads and waits at the barrier until each of them has
subscribed. The barrier is initialised for one participant more than there are
mailboxes, and these are the threads that subscribe, and the safeguard: the broker
shares the box of the postman and does not. So no thread stays at the barrier, however
they are interleaved, and behind it every mail type has the one receiver it should.

The count leaves no room for a thread that gives up before it subscribes, and `ui` is
one: when `shm_init` fails it returns. The barrier then waits for a call that nobody
makes, and with it the safeguard and every other thread, for ever.
-/

namespace EventRecorder.StartUp

open PostOffice Subscriptions ThreadTable Routing LoggerRoutes

/-! ## Progress -/

/-- How far a caller is in its first call, counted in steps from outside to the barrier. -/
def pcStage : Pc → Nat
  | .outside => 0
  | .called => 1
  | .subscribing row => 2 + row
  | .arriving => 12
  | .waiting _ => 13

/-- The same, a call that has returned being the furthest. -/
def stage (sys : System) (k : Nat) : Nat := if sys.returned k = 0 then pcStage (sys.pc k) else 14

section

variable {bSize : Nat} {callers : List Caller} {sys after : System} {k : Nat}

/-- A call that returns is as far as it can be. -/
theorem stage_finish : stage (sys.finish k) k = 14 := by simp [stage]

/-- In its first call, a caller is as far as the place it goes to. -/
theorem stage_goto (pc : Pc) (first : sys.returned k = 0) :
    stage (sys.goto k pc) k = pcStage pc := by simp [stage, first]

/-- A first call gets further with every step, until it is at the barrier. -/
theorem first_stage (subscribed : Subscribed bSize callers sys) (below : k < callers.length)
    (first : sys.returned k = 0) :
    stage sys k ≤ stage (subscribe callers sys k) k ∧
      (stage sys k < 13 → stage sys k < stage (subscribe callers sys k) k) := by
  have found := List.getElem?_eq_getElem below
  have here : stage sys k = pcStage (sys.pc k) := if_pos first
  rw [here]
  cases pc : sys.pc k with
  | outside =>
    simp only [subscribe, found, pc, stage_goto _ first]
    decide
  | called =>
    simp only [subscribe, found, pc]
    split_ifs
    · rw [stage_goto _ (by exact first)]
      decide
    · rw [stage_finish]
      decide
    · rw [stage_goto _ (by exact first)]
      decide
  | subscribing row =>
    have reached : row ≤ 9 := subscribed.below k row pc
    simp only [subscribe, found, pc]
    split_ifs with inside wants
    · rw [stage_goto _ (by exact first)]
      simp [pcStage]
    · rw [stage_goto _ (by exact first)]
      simp [pcStage]
    · rw [stage_goto _ (by exact first)]
      simp only [pcStage]
      omega
  | arriving =>
    simp only [subscribe, found, pc, System.arrive]
    split_ifs
    · rw [stage_finish]
      decide
    · rw [stage_goto _ (by exact first)]
      simp [pcStage]
  | waiting generation =>
    refine ⟨?_, fun early => absurd early (lt_irrefl 13)⟩
    simp only [subscribe, found, pc]
    split_ifs
    · rw [stage_finish]
      simp [pcStage]
    · rw [here, pc]

/-- No call takes back that one has returned. -/
theorem returned_stays (moves : Moves callers sys k after) (j : Nat)
    (returned : sys.returned j ≠ 0) : after.returned j ≠ 0 := by
  by_cases own : j = k
  · subst own
    cases moves <;> simp [returned]
  · rwa [(moves_other moves j own).2]

/-- A step takes its caller further, until that is at the barrier, and leaves the others
where they are. -/
theorem step_stage (subscribed : Subscribed bSize callers sys) (below : k < callers.length)
    (j : Nat) :
    stage sys j ≤ stage (subscribe callers sys k) j ∧
      (j = k → stage sys j < 13 → stage sys j < stage (subscribe callers sys k) j) := by
  have moves := subscribe_moves callers sys k
  by_cases first : sys.returned j = 0
  · by_cases own : j = k
    · subst own
      obtain ⟨grows, further⟩ := first_stage subscribed below first
      exact ⟨grows, fun _ => further⟩
    · obtain ⟨pc, returned⟩ := moves_other moves j own
      simp [stage, pc, returned, own]
  · have done : stage sys j = 14 := if_neg first
    have still : stage (subscribe callers sys k) j = 14 := if_neg (returned_stays moves j first)
    omega

/-- After so many steps a caller is that far, or at the barrier. The proof is by
induction on the schedule. -/
theorem run_stage (admissible : Admissible bSize callers)
    (subscribed : Subscribed bSize callers sys) (schedule : List Nat)
    (inside : ∀ k ∈ schedule, k < callers.length) (j : Nat) :
    min 13 (stage sys j + schedule.count j) ≤
      stage (Runs.after (subscribe callers) sys schedule) j := by
  induction schedule generalizing sys with
  | nil => simp
  | cons k schedule inductionHypothesis =>
    obtain ⟨here, others⟩ := List.forall_mem_cons.mp inside
    obtain ⟨grows, further⟩ := step_stage subscribed here j
    have rest := inductionHypothesis (moves_subscribed admissible subscribed
      (subscribe_moves callers sys k)) others
    rw [Runs.after_cons]
    refine le_trans ?_ rest
    rw [List.count_cons]
    split_ifs with own
    · have strict := further (beq_iff_eq.mp own).symm
      omega
    · omega

/-! ## The barrier -/

/-- The closed barrier has room for a caller; once it is open, each has returned or may. -/
structure Opening (callers : List Caller) (sys : System) : Prop where
  room : sys.generation = 0 → sys.arrived ≠ sys.barrier
  free : 0 < sys.generation → ∀ k < callers.length, sys.returned k ≠ 0 ∨ sys.pc k = .waiting 0

/-- Every move keeps that, the arrival of the last caller included. -/
theorem moves_opening (subscribed : Subscribed bSize callers sys) (opening : Opening callers sys)
    (moves : Moves callers sys k after) : Opening callers after where
  room := by
    intro closed
    cases moves with
    | waits _ _ _ early => exact early
    | releases => cases closed
    | _ => exact opening.room closed
  free := by
    intro opened j below
    -- A caller that moves elsewhere than to the end of its call had returned before.
    have stays : 0 < sys.generation → (∀ pc, sys.pc k ≠ .waiting pc) →
        after.returned j ≠ 0 ∨ after.pc j = .waiting 0 := by
      intro before busy
      rcases opening.free before j below with returned | waiting
      · exact .inl (returned_stays moves j returned)
      · have other : j ≠ k := fun own => busy 0 (own ▸ waiting)
        exact .inr ((moves_other moves j other).1.trans waiting)
    cases moves with
    | stays => exact opening.free opened j below
    | calls _ _ pc => exact stays opened (by simp [pc])
    | ignores _ _ pc => exact stays opened (by simp [pc])
    | restarted _ _ pc => exact stays opened (by simp [pc])
    | marks _ _ pc => exact stays opened (by simp [pc])
    | appends _ _ _ pc => exact stays opened (by simp [pc])
    | skips _ _ _ pc => exact stays opened (by simp [pc])
    | subscribed _ _ _ pc => exact stays opened (by simp [pc])
    | waits _ _ pc => exact stays opened (by simp [pc])
    | releases caller found pc last =>
      by_cases own : j = k
      · subst own
        exact .inl (by simp)
      · rcases Nat.eq_zero_or_pos sys.generation with closed | before
        · have waiting := others_wait subscribed closed caller found pc last j own below
          exact .inr (by simpa [own] using waiting)
        · exact stays before (by simp [pc])
    | leaves _ _ _ pc =>
      by_cases own : j = k
      · subst own
        exact .inl (by simp)
      · simpa [own] using opening.free opened j below

/-- So does every run, from any state in which the barrier counts its callers. -/
theorem run_opening (admissible : Admissible bSize callers)
    (subscribed : Subscribed bSize callers sys) (opening : Opening callers sys)
    (schedule : List Nat) : Opening callers (Runs.after (subscribe callers) sys schedule) := by
  induction schedule generalizing sys with
  | nil => exact opening
  | cons k schedule inductionHypothesis =>
    have moves := subscribe_moves callers sys k
    exact inductionHypothesis (moves_subscribed admissible subscribed moves)
      (moves_opening subscribed opening moves)

/-- When all callers are at the barrier, or behind it, and it waits for no more than
these, it is open. -/
theorem opened_of_stage (subscribed : Subscribed bSize callers sys)
    (opening : Opening callers sys) (full : sys.barrier = callers.length)
    (far : ∀ k < callers.length, 13 ≤ stage sys k) : 0 < sys.generation := by
  by_contra closed
  have zero : sys.generation = 0 := by omega
  obtain ⟨none, arrived⟩ := subscribed.closed zero
  apply opening.room zero
  rw [arrived, full, Finset.filter_true_of_mem, Finset.card_range]
  intro k inside
  have place := far k (Finset.mem_range.mp inside)
  rw [stage, if_pos (none k)] at place
  cases pc : sys.pc k with
  | waiting generation =>
    have early := subscribed.waits k generation pc
    rw [show generation = 0 by omega]
  | subscribing row =>
    have reached : row ≤ 9 := subscribed.below k row pc
    simp only [pc, pcStage] at place
    omega
  | _ => simp [pc, pcStage] at place

/-- Once the barrier is open, a call returns with the next step of its caller. -/
theorem returns_next (admissible : Admissible bSize callers)
    (subscribed : Subscribed bSize callers sys) (opening : Opening callers sys)
    (opened : 0 < sys.generation) (schedule : List Nat) (j : Nat) (below : j < callers.length)
    (scheduled : j ∈ schedule) :
    (Runs.after (subscribe callers) sys schedule).returned j ≠ 0 := by
  have stays (sys : System) (returned : sys.returned j ≠ 0) (later : List Nat) :
      (Runs.after (subscribe callers) sys later).returned j ≠ 0 := by
    induction later generalizing sys with
    | nil => exact returned
    | cons k later inductionHypothesis =>
      exact inductionHypothesis _ (returned_stays (subscribe_moves callers sys k) j returned)
  induction schedule generalizing sys with
  | nil => cases scheduled
  | cons k schedule inductionHypothesis =>
    have moves := subscribe_moves callers sys k
    rcases opening.free opened j below with returned | waiting
    · exact stays sys returned _
    by_cases own : j = k
    · subst own
      have leaves : subscribe callers sys j = sys.finish j := by
        simp [subscribe, List.getElem?_eq_getElem below, waiting, Nat.ne_of_gt opened]
      exact stays _ (by simp [leaves]) schedule
    · exact inductionHypothesis (moves_subscribed admissible subscribed moves)
        (moves_opening subscribed opening moves) (moves_office subscribed moves opened).2
        ((List.mem_cons.mp scheduled).resolve_left own)

/-- No run changes what the barrier was initialised for. -/
theorem run_barrier (schedule : List Nat) :
    (Runs.after (subscribe callers) sys schedule).barrier = sys.barrier := by
  induction schedule generalizing sys with
  | nil => rfl
  | cons k schedule inductionHypothesis =>
    exact inductionHypothesis.trans (moves_barrier (subscribe_moves callers sys k))

/-- However the callers are interleaved: when each has made thirteen steps, and then one
more, each has returned, if the barrier was initialised for just these callers. -/
theorem all_returned (boxes : Nat) (memory : Nat → Int) (callers : List Caller) (barrier : Nat)
    (counted : barrier = callers.length) (admissible : Admissible (boxes + 1) callers)
    (some : callers ≠ []) (schedule later : List Nat)
    (inside : ∀ k ∈ schedule, k < callers.length)
    (often : ∀ k < callers.length, 13 ≤ schedule.count k)
    (again : ∀ k < callers.length, k ∈ later) :
    ∀ k < callers.length,
      (Runs.after (subscribe callers) (started boxes memory barrier)
        (schedule ++ later)).returned k ≠ 0 := by
  have before := started_subscribed boxes memory callers barrier counted.ge
  have subscribed := run_subscribed admissible before schedule
  have fresh : Opening callers (started boxes memory barrier) := by
    refine ⟨?_, fun opened => by cases opened⟩
    intro _ none
    exact some (List.length_eq_zero_iff.mp (counted.symm.trans none.symm))
  have opening := run_opening admissible before fresh schedule
  have opened := opened_of_stage subscribed opening ((run_barrier schedule).trans counted) (by
    intro k below
    have far := run_stage admissible before schedule inside k
    have enough := often k below
    omega)
  intro k below
  rw [Runs.after_append]
  exact returns_next admissible subscribed opening opened later k below (again k below)

/-! ## One caller too few -/

/-- A barrier that waits for more callers than there are stays closed with every move:
the one that would open it has at most the others waiting there. -/
theorem moves_short (subscribed : Subscribed bSize callers sys)
    (short : callers.length < sys.barrier) (closed : sys.generation = 0)
    (moves : Moves callers sys k after) : after.generation = 0 := by
  cases moves with
  | releases caller found pc last =>
    have room := arriving_room subscribed closed caller found pc
    omega
  | _ => exact closed

/-- So it does in every run: with a caller too few the barrier never opens. -/
theorem run_short (admissible : Admissible bSize callers)
    (subscribed : Subscribed bSize callers sys) (short : callers.length < sys.barrier)
    (closed : sys.generation = 0) (schedule : List Nat) :
    (Runs.after (subscribe callers) sys schedule).generation = 0 := by
  induction schedule generalizing sys with
  | nil => exact closed
  | cons k schedule inductionHypothesis =>
    have moves := subscribe_moves callers sys k
    have still : callers.length < (subscribe callers sys k).barrier := by
      rw [moves_barrier moves]
      exact short
    exact inductionHypothesis (moves_subscribed admissible subscribed moves) still
      (moves_short subscribed short closed moves)

/-- And no call returns: the callers that are done wait for one that never comes. -/
theorem none_returned (boxes : Nat) (memory : Nat → Int) (callers : List Caller) (barrier : Nat)
    (short : callers.length < barrier) (admissible : Admissible (boxes + 1) callers)
    (schedule : List Nat) (k : Nat) :
    (Runs.after (subscribe callers) (started boxes memory barrier) schedule).returned k = 0 := by
  have before := started_subscribed boxes memory callers barrier short.le
  have closed := run_short admissible before short rfl schedule
  exact ((run_subscribed admissible before schedule).closed closed).1 k

end

/-! ## The threads of the recorder -/

/-- The functions the safeguard starts threads with, by their names in the source. -/
inductive Thread where
  | postman
  | broker
  | logger
  | safety
  | ui
  | cellular
  deriving DecidableEq, Repr

/-- `df`, `processes` and `safety_box` of the two builds. -/
def config : PostmanOpt → Config Thread
  | .postman =>
    { df := [.postman, .broker, .logger]
      processes := [.ui, .cellular, .safety]
      safetyBox := 0 }
  | .direct =>
    { df := [.postman, .broker, .logger, .safety]
      processes := [.ui, .cellular]
      safetyBox := 1 }

/-- The call of `post_office_subscribe` that a thread makes. The broker makes none, and `ui`
none when its call of `shm_init` fails, behind which it returns; an internal thread finds its
mailbox in its data, a process is started with it. -/
def subscription (shmInit : Bool) : Thread → Arg → Option Caller
  | .postman, _ => some postmanCaller
  | .logger, .data _ => some loggerCaller
  | .safety, .data _ => some ⟨2, 256⟩
  | .safety, .box i => some ⟨i, 256⟩
  | .ui, .box i => if shmInit then some ⟨i, 8 ||| 128⟩ else none
  | .cellular, .box i => some ⟨i, 32⟩
  | _, _ => none

/-- The call of `safeguard_init` itself, with `MT_IGNORE`, which subscribes to nothing
and waits at the barrier. -/
def safeguardCaller : Caller := ⟨-1, 0⟩

/-- The calls of the threads that `safeguard_init_threads` starts, and that of the
safeguard, where `shm_init` succeeds or fails. -/
def participants (opt : PostmanOpt) (shmInit : Bool) : List Caller :=
  ((List.range (config opt).size).filterMap fun slot =>
    ((initial (config opt)).runs slot).bind fun run => subscription shmInit run.1 run.2) ++
      [safeguardCaller]

/-- What `safeguard_init` calls `post_office_init` with: so many boxes, and one
participant more for itself. -/
def unsubscribed (opt : PostmanOpt) (memory : Nat → Int) : System :=
  started ((config opt).bSize - 1) memory (barrierCount ((config opt).bSize - 1) 1)

/-- The barrier is initialised for as many calls as there are when every thread
subscribes. -/
theorem participants_length (opt : PostmanOpt) :
    barrierCount ((config opt).bSize - 1) 1 = (participants opt true).length := by
  cases opt <;> decide +kernel

/-- Without that of `ui` one is missing, in either build. -/
theorem participants_short (opt : PostmanOpt) :
    (participants opt false).length < barrierCount ((config opt).bSize - 1) 1 := by
  cases opt <;> decide +kernel

/-- A call with `MT_IGNORE` needs no id of its own, as nothing is written for it. -/
theorem admissible_ignored {bSize : Nat} {callers : List Caller}
    (admissible : Admissible bSize callers) (id : Int) :
    Admissible bSize (callers ++ [⟨id, 0⟩]) := by
  have among (k : Nat) (caller : Caller) (found : (callers ++ [⟨id, 0⟩])[k]? = some caller)
      (some : caller.mask ≠ 0) : callers[k]? = .some caller := by
    rw [List.getElem?_append] at found
    split_ifs at found with below
    · exact found
    · obtain rfl := List.mem_singleton.mp (List.mem_of_getElem? found)
      exact absurd rfl some
  constructor
  · intro i j left right leftFound rightFound leftSome rightSome
    exact admissible.distinct i j left right (among i left leftFound leftSome)
      (among j right rightFound rightSome) leftSome rightSome
  · intro k caller found some
    exact admissible.inside k caller (among k caller found some) some

/-- The threads subscribe with distinct ids, each that of a box. -/
theorem participants_admissible (opt : PostmanOpt) (shmInit : Bool) :
    Admissible (config opt).bSize (participants opt shmInit) :=
  admissible_ignored (admissible_of_nodup (by cases opt <;> cases shmInit <;> decide +kernel)
    (by cases opt <;> cases shmInit <;> decide +kernel)) (-1)

/-- No mail type has two receivers, so that the order of subscription does not matter. -/
theorem one_receiver (opt : PostmanOpt) (row : Nat) (below : row < mtSize) :
    ((participants opt true).filter fun caller => caller.wants row).length ≤ 1 := by
  have all : ∀ row < mtSize,
      ((participants opt true).filter fun caller => caller.wants row).length ≤ 1 := by
    cases opt <;> decide +kernel
  exact all row below

/-- The safeguard and the threads get past the barrier exactly when `shm_init` succeeds.

Where it succeeds, and however they are interleaved: when each has made thirteen steps, and
then one more, each call has returned. The table is complete, and the row of a mail type is
the box of the thread that takes it, if there is one. Where it fails, no call ever returns.

Proof: a first call gets further with every step until it is at the barrier, and the calls
that are made are as many as the barrier waits for, or one fewer. -/
theorem start_up (opt : PostmanOpt) (memory : Nat → Int) :
    (∀ schedule later : List Nat, (∀ k ∈ schedule, k < (participants opt true).length) →
      (∀ k < (participants opt true).length, 13 ≤ schedule.count k) →
      (∀ k < (participants opt true).length, k ∈ later) →
      let sys := Runs.after (subscribe (participants opt true)) (unsubscribed opt memory)
        (schedule ++ later)
      (∀ k < (participants opt true).length, sys.returned k ≠ 0) ∧
        Wired (participants opt true) sys.office ∧
        ∀ row < mtSize, sys.office.row row =
          ((participants opt true).filter fun caller => caller.wants row).map Caller.id) ∧
      ∀ (schedule : List Nat) (k : Nat), (Runs.after (subscribe (participants opt false))
        (unsubscribed opt memory) schedule).returned k = 0 := by
  refine ⟨?_, none_returned _ memory _ _ (participants_short opt)
    (participants_admissible opt false)⟩
  intro schedule later inside often again sys
  have admissible := participants_admissible opt true
  have some : participants opt true ≠ [] :=
    List.append_ne_nil_of_right_ne_nil _ (List.cons_ne_nil _ _)
  have returned := all_returned ((config opt).bSize - 1) memory (participants opt true) _
    (participants_length opt) admissible some schedule later inside often again
  have built : Built (participants opt true) sys.office := by
    refine ⟨_, memory, schedule ++ later, 0, admissible, ?_, ?_⟩
    · rw [← participants_length]
      exact Nat.pos_of_ne_zero (returned 0 (List.length_pos_iff.mpr some))
    · rw [← participants_length]
      rfl
  have members : postmanCaller ∈ participants opt true ∧ loggerCaller ∈ participants opt true := by
    cases opt <;> decide +kernel
  refine ⟨returned, ⟨built, members.1, members.2⟩, ?_⟩
  intro row below
  have perm := built.exact.rows row below
  rcases receivers : (participants opt true).filter fun caller => caller.wants row with
    _ | ⟨caller, others⟩
  · rw [receivers] at perm ⊢
    exact perm.eq_nil
  · have one := one_receiver opt row below
    obtain rfl : others = [] := by simpa [receivers] using one
    rw [receivers] at perm ⊢
    exact perm.eq_singleton

/-- Round robin, with an allocation full of sevens that nobody ever reads. -/
theorem round_robin_start :
    ∃ sys, sys = Runs.after (subscribe (participants .postman true))
        (unsubscribed .postman fun _ => 7)
        ((List.replicate 13 (List.range 6)).flatten ++ List.range 6) ∧
      sys.returned 5 ≠ 0 ∧ sys.office.row 3 = [2] ∧ sys.office.row 4 = [1] := by
  obtain ⟨returned, _, rows⟩ := (start_up .postman fun _ => 7).1
    (List.replicate 13 (List.range 6)).flatten (List.range 6) (by decide +kernel)
    (by decide +kernel) (by decide +kernel)
  refine ⟨_, rfl, returned 5 (by decide +kernel), ?_, ?_⟩
  · exact (rows 3 (by decide)).trans (by decide +kernel)
  · exact (rows 4 (by decide)).trans (by decide +kernel)

end EventRecorder.StartUp
