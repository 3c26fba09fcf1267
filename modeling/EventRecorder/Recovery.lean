import Mathlib.Logic.Function.Iterate

/-!
# Calls that handle a failure by calling themselves

A call attempts something. If the attempt fails, the call runs itself on the
state the failure leaves, to record it; then, in either case, it finishes. The
recursion is bounded by nothing but the outcomes of the attempts, so it is given
fuel here and the results hold for whatever fuel suffices.

A call descends through failing attempts to the first that succeeds and then
finishes once for each attempt on its way back. It returns exactly when some
attempt of that descent succeeds.
-/

namespace EventRecorder

universe u

/-- An attempt, with whether it failed, and what each call does at its end, however the
attempt went. -/
structure Recovery (σ : Type u) where
  attempt : σ → Bool × σ
  finish : σ → σ

namespace Recovery

variable {σ : Type u} (recovery : Recovery σ)

/-- The recursive call. A failed attempt is handled by a call on the state it leaves;
without fuel the call does not return. -/
def call : Nat → σ → Option σ
  | 0, _ => none
  | fuel + 1, state =>
    let (failed, attempted) := recovery.attempt state
    (if failed then call fuel attempted else some attempted).map recovery.finish

/-- The state after so many attempts, each made from what the last one left. None of the
calls has finished yet. -/
def descend (count : Nat) (state : σ) : σ := (fun state => (recovery.attempt state).2)^[count] state

/-- So many attempts fail before one succeeds, each made on the state that the failures
before it have left. -/
def Settles (state : σ) (failures : Nat) : Prop :=
  (∀ earlier, earlier < failures →
      (recovery.attempt (recovery.descend earlier state)).1 = true) ∧
    (recovery.attempt (recovery.descend failures state)).1 = false

/-- Before the first attempt the state is the one the call starts from. -/
@[simp] theorem descend_zero (state : σ) : recovery.descend 0 state = state := rfl

/-- The first attempt comes before the others, which start from what it leaves. -/
theorem descend_succ (count : Nat) (state : σ) :
    recovery.descend (count + 1) state = recovery.descend count (recovery.attempt state).2 := rfl

/-- The last attempt comes behind the others. An invariant of the descent is shown with
this equation. -/
theorem descend_succ' (count : Nat) (state : σ) :
    recovery.descend (count + 1) state =
      (recovery.attempt (recovery.descend count state)).2 :=
  Function.iterate_succ_apply' ..

/-- A first attempt that succeeds settles the call at once. -/
theorem settles_zero (state : σ) :
    recovery.Settles state 0 ↔ (recovery.attempt state).1 = false := by
  simp [Settles]

/-- After a first failure the rest of the descent starts from what it left, with one
failure less to come. -/
theorem settles_succ (state : σ) (failures : Nat) :
    recovery.Settles state (failures + 1) ↔
      (recovery.attempt state).1 = true ∧ recovery.Settles (recovery.attempt state).2 failures := by
  constructor
  · rintro ⟨fail, succeed⟩
    refine ⟨fail 0 (Nat.succ_pos _), ?_, succeed⟩
    intro earlier short
    exact fail (earlier + 1) (Nat.succ_lt_succ short)
  · rintro ⟨first, fail, succeed⟩
    refine ⟨?_, succeed⟩
    intro earlier short
    cases earlier with
    | zero => exact first
    | succ earlier => exact fail earlier (Nat.lt_of_succ_lt_succ short)

/-- At most one number of failures settles a call: the attempt that succeeds for the
smaller of two would fail for the larger. -/
theorem settles_unique {state : σ} {left right : Nat} (leftSettles : recovery.Settles state left)
    (rightSettles : recovery.Settles state right) : left = right := by
  rcases Nat.lt_trichotomy left right with short | same | long
  · have both := (rightSettles.1 left short).symm.trans leftSettles.2
    cases both
  · exact same
  · have both := (leftSettles.1 right long).symm.trans rightSettles.2
    cases both

/-- What a call returns: it descends to the first success, if the fuel lets it, and
finishes once for each attempt.

Proof: by induction on the fuel. A first attempt that succeeds settles the call; behind
one that fails the call on what it left has a unit of fuel less, and its own descent. -/
theorem call_some_iff (fuel : Nat) (state result : σ) :
    recovery.call fuel state = some result ↔
      ∃ failures, failures < fuel ∧ recovery.Settles state failures ∧
        recovery.finish^[failures + 1] (recovery.descend (failures + 1) state) = result := by
  induction fuel generalizing state result with
  | zero => simp [call]
  | succ fuel inductionHypothesis =>
    cases failed : (recovery.attempt state).1 with
    | false =>
      have unfolded : recovery.call (fuel + 1) state =
          some (recovery.finish (recovery.attempt state).2) := by simp [call, failed]
      rw [unfolded, Option.some.injEq]
      constructor
      · rintro rfl
        exact ⟨0, Nat.succ_pos _, (recovery.settles_zero state).mpr failed, rfl⟩
      · rintro ⟨failures, _, settles, finished⟩
        have none : failures = 0 :=
          recovery.settles_unique settles ((recovery.settles_zero state).mpr failed)
        subst none
        exact finished
    | true =>
      have unfolded : recovery.call (fuel + 1) state =
          (recovery.call fuel (recovery.attempt state).2).map recovery.finish := by
        simp [call, failed]
      rw [unfolded, Option.map_eq_some_iff]
      constructor
      · rintro ⟨inner, returned, rfl⟩
        obtain ⟨failures, enough, settles, finished⟩ := (inductionHypothesis _ _).mp returned
        refine ⟨failures + 1, Nat.succ_lt_succ enough,
          (recovery.settles_succ state failures).mpr ⟨failed, settles⟩, ?_⟩
        rw [Function.iterate_succ_apply', descend_succ, finished]
      · rintro ⟨failures, enough, settles, finished⟩
        cases failures with
        | zero =>
          rw [(recovery.settles_zero state).mp settles] at failed
          cases failed
        | succ failures =>
          have rest := ((recovery.settles_succ state failures).mp settles).2
          refine ⟨_, (inductionHypothesis _ _).mpr
            ⟨failures, Nat.lt_of_succ_lt_succ enough, rest, rfl⟩, ?_⟩
          rw [← finished]
          exact (Function.iterate_succ_apply' ..).symm

/-- A call returns, with enough fuel, exactly when its descent comes to a success. If no
attempt ever succeeds it recurs for ever, whatever the fuel. -/
theorem returns_iff (state : σ) :
    (∃ fuel result, recovery.call fuel state = some result) ↔
      ∃ failures, recovery.Settles state failures := by
  constructor
  · rintro ⟨fuel, result, returned⟩
    obtain ⟨failures, _, settles, _⟩ := (recovery.call_some_iff fuel state result).mp returned
    exact ⟨failures, settles⟩
  · rintro ⟨failures, settles⟩
    exact ⟨failures + 1, _, (recovery.call_some_iff _ _ _).mpr
      ⟨failures, Nat.lt_succ_self _, settles, rfl⟩⟩

end Recovery

end EventRecorder
