import Mathlib.Data.List.Induction

/-!
# Runs of a deterministic step

A system consumes its inputs one at a time. Its state after a list of inputs is
the left fold of the step; what it emits is the concatenation, in order, of what
each step emits. A property of every step may mention the inputs consumed
before it, so that it can compare the state with the history that produced it.

The two rules of this module carry every run-level result: an invariant that
each step keeps holds after any run, and an equivalence that holds at each step
under an invariant lifts to an equivalence over the whole run.
-/

namespace EventRecorder.Runs

universe u v w x y
variable {σ : Type u} {ι : Type v} {ο : Type w}

/-- The state reached by consuming the inputs in order. It is the left fold of the step,
so that a run can be cut at any point. -/
def after (step : σ → ι → σ) (start : σ) (inputs : List ι) : σ := inputs.foldl step start

/-- Everything emitted while the inputs are consumed, in order: what a step emits
depends on the state it starts from, which the inputs before it have led to. -/
def emitted (step : σ → ι → σ) (emit : σ → ι → List ο) : σ → List ι → List ο
  | _, [] => []
  | state, input :: rest => emit state input ++ emitted step emit (step state input) rest

/-- A property of each step of a run: of the inputs consumed before it, the
state it starts from and the input it consumes. -/
def EveryStep (step : σ → ι → σ) (start : σ) (inputs : List ι)
    (property : List ι → σ → ι → Prop) : Prop :=
  ∀ before input rest, inputs = before ++ input :: rest →
    property before (after step start before) input

variable (step : σ → ι → σ) (emit : σ → ι → List ο) (start : σ)

/-- Without inputs the state is that from the start. -/
@[simp] theorem after_nil : after step start [] = start := rfl

/-- The first input is consumed from the start; the others continue from where it leads.
This is the case that inductions on the inputs of a run use. -/
@[simp] theorem after_cons (input : ι) (rest : List ι) :
    after step start (input :: rest) = after step (step start input) rest := rfl

/-- A run over two lists is the run over the second from where the first has led. -/
@[simp] theorem after_append (before rest : List ι) :
    after step start (before ++ rest) = after step (after step start before) rest := by
  simp [after]

/-- Nothing is emitted before the first input, whatever the start. -/
@[simp] theorem emitted_nil : emitted step emit start [] = [] := rfl

/-- The first step emits before the others, which start from the state behind it. -/
@[simp] theorem emitted_cons (input : ι) (rest : List ι) :
    emitted step emit start (input :: rest) =
      emit start input ++ emitted step emit (step start input) rest := rfl

/-- What a run emits splits at any point of the run, the second part being what is
emitted from the state reached there. -/
@[simp] theorem emitted_append (before rest : List ι) :
    emitted step emit start (before ++ rest) =
      emitted step emit start before ++ emitted step emit (after step start before) rest := by
  induction before generalizing start with
  | nil => rfl
  | cons input before inductionHypothesis =>
    simp [inductionHypothesis (step start input)]

/-- Where each step emits one item, a run emits as many items as it has inputs,
and the item at an input's position is that of its step. -/
theorem emitted_one (single : ∀ state input, ∃ item, emit state input = [item])
    (inputs : List ι) : (emitted step emit start inputs).length = inputs.length := by
  induction inputs generalizing start with
  | nil => rfl
  | cons input rest inductionHypothesis =>
    obtain ⟨item, emits⟩ := single start input
    rw [emitted_cons, emits, List.length_append, inductionHypothesis, List.length_singleton,
      List.length_cons, Nat.add_comm]

/-- The item at an input's position is then the one that its own step emits, from the
state which the inputs before it have reached. -/
theorem emitted_at (single : ∀ state input, ∃ item, emit state input = [item])
    (before : List ι) (input : ι) (rest : List ι) :
    (emitted step emit start (before ++ input :: rest))[before.length]? =
      (emit (after step start before) input).head? := by
  obtain ⟨item, emits⟩ := single (after step start before) input
  have position := emitted_one step emit start single before
  rw [emitted_append, List.getElem?_append_right (Nat.le_of_eq position), position, Nat.sub_self,
    emitted_cons, emits]
  rfl

/-- What a run emits is what its steps emit: an item is emitted exactly if there is a
point of the run whose step, from the state reached there, emits it. -/
theorem mem_emitted (inputs : List ι) (item : ο) :
    item ∈ emitted step emit start inputs ↔ ∃ before input rest,
      inputs = before ++ input :: rest ∧ item ∈ emit (after step start before) input := by
  constructor
  · intro member
    induction inputs generalizing start with
    | nil => cases member
    | cons input rest inductionHypothesis =>
      rcases List.mem_append.mp member with here | later
      · exact ⟨[], input, rest, rfl, here⟩
      · obtain ⟨before, next, others, split, found⟩ := inductionHypothesis _ later
        exact ⟨input :: before, next, others, by rw [split, List.cons_append], found⟩
  · rintro ⟨before, input, rest, rfl, member⟩
    rw [emitted_append, emitted_cons]
    exact List.mem_append_right _ (List.mem_append_left _ member)

/-- Runs from related states emit the same, if related states do so at each step and
stay related. By induction on the inputs, for any relation the caller chooses. -/
theorem emitted_alike (related : σ → σ → Prop)
    (alike : ∀ left right input, related left right →
      emit left input = emit right input ∧ related (step left input) (step right input))
    (left right : σ) (initial : related left right) (inputs : List ι) :
    emitted step emit left inputs = emitted step emit right inputs := by
  induction inputs generalizing left right with
  | nil => rfl
  | cons input rest inductionHypothesis =>
    obtain ⟨same, still⟩ := alike left right input initial
    rw [emitted_cons, emitted_cons, same, inductionHypothesis _ _ still]

/-- The converse for one step: two states from which all runs emit the same emit the
same at each step, since the runs up to and with it differ by no more than that. -/
theorem emit_alike (left right : σ)
    (alike : ∀ inputs, emitted step emit left inputs = emitted step emit right inputs)
    (before : List ι) (input : ι) :
    emit (after step left before) input = emit (after step right before) input := by
  have whole := alike (before ++ [input])
  rw [emitted_append, emitted_append, alike before] at whole
  simpa using List.append_cancel_left whole

/-- The steps of a run are its first one, and the others with the first input counted
among those consumed before. -/
theorem every_step_cons (input : ι) (rest : List ι) (property : List ι → σ → ι → Prop) :
    EveryStep step start (input :: rest) property ↔
      property [] start input ∧ EveryStep step (step start input) rest
        (fun before state next => property (input :: before) state next) := by
  constructor
  · intro every
    refine ⟨every [] input rest rfl, ?_⟩
    rintro before next later rfl
    exact every (input :: before) next later rfl
  · rintro ⟨first, others⟩ before next later split
    cases before with
    | nil =>
      obtain ⟨rfl, rfl⟩ := List.cons.inj split
      exact first
    | cons head before =>
      obtain ⟨rfl, rfl⟩ := List.cons.inj split
      exact others before next later rfl

/-- A run without inputs has no step, so that every property holds of each of them. -/
theorem every_step_nil (property : List ι → σ → ι → Prop) : EveryStep step start [] property := by
  intro before input rest split
  simp at split

/-- The steps of a run over two lists: those of the first, and behind them those of the
second, with the first among the inputs consumed before. -/
theorem every_step_append (before rest : List ι) (property : List ι → σ → ι → Prop) :
    EveryStep step start (before ++ rest) property ↔
      EveryStep step start before property ∧ EveryStep step (after step start before) rest
        (fun later state input => property (before ++ later) state input) := by
  induction before generalizing start property with
  | nil => simp [every_step_nil]
  | cons input before inductionHypothesis =>
    rw [List.cons_append, every_step_cons, every_step_cons, inductionHypothesis, and_assoc]
    rfl

/-- Whether every step of a run meets a condition on its state and its input, by
recursion on the inputs. Runs on given inputs can so be decided by evaluation. -/
def decideEveryStep (condition : σ → ι → Prop)
    [∀ state input, Decidable (condition state input)] (start : σ) :
    (inputs : List ι) →
      Decidable (EveryStep step start inputs fun _ state input => condition state input)
  | [] => isTrue (every_step_nil step start _)
  | input :: rest =>
    have := decideEveryStep condition (step start input) rest
    decidable_of_iff _ (every_step_cons step start input rest _).symm

instance (condition : σ → ι → Prop) [∀ state input, Decidable (condition state input)]
    (start : σ) (inputs : List ι) :
    Decidable (EveryStep step start inputs fun _ state input => condition state input) :=
  decideEveryStep step condition start inputs

/-- Where one property holds of every step, its conjunction with another holds of
every step exactly when the other does. -/
theorem every_step_and_iff (inputs : List ι) (given property : List ι → σ → ι → Prop)
    (every : EveryStep step start inputs given) :
    EveryStep step start inputs
        (fun before state input => given before state input ∧ property before state input) ↔
      EveryStep step start inputs property := by
  constructor
  · intro both before input rest split
    exact (both before input rest split).2
  · intro others before input rest split
    exact ⟨every before input rest split, others before input rest split⟩

variable {step emit start}

/-- An invariant of the inputs consumed so far and the state they lead to, kept
by each step, holds after every run. -/
theorem invariant (holds : List ι → σ → Prop) (initial : holds [] start)
    (keeps : ∀ before state input, holds before state →
      holds (before ++ [input]) (step state input)) (inputs : List ι) :
    holds inputs (after step start inputs) := by
  induction inputs using List.reverseRecOn with
  | nil => exact initial
  | append_singleton before input inductionHypothesis =>
    rw [after_append]
    exact keeps before _ input inductionHypothesis

/-- Two systems whose steps keep their states related are in related states after any
inputs of the one and the translated inputs of the other. -/
theorem after_alike {τ : Type x} {κ : Type y} (other : τ → κ → τ) (translate : ι → κ)
    (related : σ → τ → Prop)
    (keeps : ∀ left right input, related left right →
      related (step left input) (other right (translate input)))
    (left : σ) (right : τ) (initial : related left right) (inputs : List ι) :
    related (after step left inputs) (after other right (inputs.map translate)) := by
  induction inputs generalizing left right with
  | nil => exact initial
  | cons input rest inductionHypothesis =>
    exact inductionHypothesis _ _ (keeps left right input initial)

/-- An invariant kept by the steps that satisfy a condition holds at every point
of a run all of whose steps satisfy it. -/
theorem invariant_of_every (holds : List ι → σ → Prop) (condition : List ι → σ → ι → Prop)
    (initial : holds [] start)
    (keeps : ∀ before state input, holds before state → condition before state input →
      holds (before ++ [input]) (step state input))
    (inputs : List ι) (every : EveryStep step start inputs condition)
    (before rest : List ι) (split : inputs = before ++ rest) :
    holds before (after step start before) := by
  induction before using List.reverseRecOn generalizing rest with
  | nil => exact initial
  | append_singleton before input inductionHypothesis =>
    have earlier : inputs = before ++ input :: rest := by simpa using split
    rw [after_append]
    exact keeps before _ input (inductionHypothesis (input :: rest) earlier)
      (every before input rest earlier)

/-- Where an invariant makes a property and a condition equivalent at each step,
and the condition keeps the invariant, a run has the property at every step
exactly when it meets the condition at every step. -/
theorem every_step_iff (holds : List ι → σ → Prop)
    (property condition : List ι → σ → ι → Prop) (initial : holds [] start)
    (exact : ∀ before state input, holds before state →
      (property before state input ↔ condition before state input))
    (keeps : ∀ before state input, holds before state → condition before state input →
      holds (before ++ [input]) (step state input)) (inputs : List ι) :
    EveryStep step start inputs property ↔ EveryStep step start inputs condition := by
  constructor
  · intro every before input rest split
    have kept : ∀ before state input, holds before state → property before state input →
        holds (before ++ [input]) (step state input) := by
      intro before state input held satisfied
      exact keeps before state input held ((exact before state input held).mp satisfied)
    have held := invariant_of_every holds property initial kept inputs every before
      (input :: rest) split
    exact (exact before _ input held).mp (every before input rest split)
  · intro every before input rest split
    have held := invariant_of_every holds condition initial keeps inputs every before
      (input :: rest) split
    exact (exact before _ input held).mpr (every before input rest split)

end EventRecorder.Runs
