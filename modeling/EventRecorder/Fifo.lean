import EventRecorder.Runs

/-!
# First in, first out

The trace of a queue records each item added, each item taken and each time the
contents were dropped. The items kept are those added, without the ones a drop
found still waiting. A queue is first in, first out when the items taken so far,
followed by the contents, are the items kept.

That holds after any run of a system each of whose steps changes the contents by
the rule of its event. Taken items and contents are optional values: a queue that
reads memory may meet a value nothing was written to.
-/

namespace EventRecorder.Fifo

universe u v w
variable {α : Type u}

/-- What one step does to a queue. An item taken is optional, because a queue that is
read beyond what was written has none to give. -/
inductive Event (α : Type u) where
  | added (item : α)
  | taken (item : Option α)
  | dropped
  | idle

/-- The items taken, in the order in which they were, whether memory had a value for
them or not. -/
def taken (events : List (Event α)) : List (Option α) :=
  events.filterMap fun event => match event with
    | .taken item => some item
    | _ => none

/-- The items added, in the order of addition, those that a drop found still waiting
among them. -/
def added (events : List (Event α)) : List α :=
  events.filterMap fun event => match event with
    | .added item => some item
    | _ => none

/-- One event for the items kept and the number taken. A drop keeps the items
that were taken before it. -/
def keep (account : List α × Nat) : Event α → List α × Nat
  | .added item => (account.1 ++ [item], account.2)
  | .taken _ => (account.1, account.2 + 1)
  | .dropped => (account.1.take account.2, account.2)
  | .idle => account

/-- The items added and not dropped, in the order of addition: what a consumer that
drains the queue should get to see. -/
def kept (events : List (Event α)) : List α := (events.foldl keep ([], 0)).1

/-- How an event changes the contents: an item comes in behind the others, the first of
them leaves, all of them go at once, or nothing happens. -/
def Follows : Event α → List (Option α) → List (Option α) → Prop
  | .added item, before, after => after = before ++ [some item]
  | .taken item, before, after => before = item :: after
  | .dropped, _, after => after = []
  | .idle, before, after => after = before

/-- The items taken, followed by the contents, are the items kept. With nothing in the
queue this is first in, first out. -/
def Accounts (events : List (Event α)) (contents : List (Option α)) : Prop :=
  taken events ++ contents = (kept events).map some

/-- The number of items taken is kept beside the items, which tells how many of these a
drop must leave alone. -/
theorem keep_count (events : List (Event α)) :
    (events.foldl keep ([], 0)).2 = (taken events).length := by
  induction events using List.reverseRecOn with
  | nil => rfl
  | append_singleton events event inductionHypothesis =>
    rw [List.foldl_append, List.foldl_cons, List.foldl_nil]
    cases event <;> simpa [keep, taken] using inductionHypothesis

/-- One more event that follows its rule keeps the account. This is the step from which
the law of whole runs is derived. -/
theorem accounts_snoc (events : List (Event α)) (event : Event α)
    (before after : List (Option α)) (accounts : Accounts events before)
    (follows : Follows event before after) : Accounts (events ++ [event]) after := by
  have count := keep_count events
  unfold Accounts kept at accounts ⊢
  rw [List.foldl_append, List.foldl_cons, List.foldl_nil]
  generalize events.foldl keep ([], 0) = account at accounts count ⊢
  cases event with
  | added item =>
    obtain rfl : after = before ++ [some item] := follows
    simp [keep, taken, ← accounts]
  | taken item =>
    obtain rfl : before = item :: after := follows
    simp only [keep]
    rw [← accounts]
    simp [taken]
  | dropped =>
    obtain rfl : after = [] := follows
    have same : taken (events ++ [Event.dropped]) = taken events := by simp [taken]
    simp only [keep]
    rw [same, List.append_nil, List.map_take, ← accounts, count, List.take_left]
  | idle =>
    obtain rfl : after = before := follows
    simpa [keep, taken] using accounts

/-- Without a drop, the items kept are those added, and the account is about every item
that ever came in. -/
theorem kept_eq_added (events : List (Event α)) (whole : Event.dropped ∉ events) :
    kept events = added events := by
  induction events using List.reverseRecOn with
  | nil => rfl
  | append_singleton events event inductionHypothesis =>
    obtain ⟨earlier, last⟩ := not_or.mp (mt List.mem_append.mpr whole)
    have same := inductionHypothesis earlier
    unfold kept at same ⊢
    rw [List.foldl_append, List.foldl_cons, List.foldl_nil]
    cases event with
    | added item => simp [keep, added, same]
    | taken item => simpa [keep, added] using same
    | dropped => exact absurd (List.mem_singleton.mpr rfl) last
    | idle => simpa [keep, added] using same

section

variable {σ : Type v} {ι : Type w} {step : σ → ι → σ} {start : σ}

/-- A run whose steps all meet a condition, under which they keep an invariant
and follow the rule of their event, accounts for every item at every point. -/
theorem accounts_run (event : σ → ι → Event α) (contents : σ → List (Option α))
    (holds : σ → Prop) (condition : σ → ι → Prop) (initial : holds start)
    (empty : contents start = [])
    (keeps : ∀ state input, holds state → condition state input →
      holds (step state input) ∧
        Follows (event state input) (contents state) (contents (step state input)))
    (inputs : List ι)
    (every : Runs.EveryStep step start inputs fun _ state input => condition state input)
    (before rest : List ι) (split : inputs = before ++ rest) :
    let state := Runs.after step start before
    holds state ∧ Accounts (Runs.emitted step (fun state input => [event state input]) start before)
      (contents state) := by
  refine Runs.invariant_of_every (fun before state => holds state ∧
    Accounts (Runs.emitted step (fun state input => [event state input]) start before)
      (contents state) ∧ state = Runs.after step start before)
    (fun _ state input => condition state input) ?_ ?_ inputs every before rest split |>.imp
      id And.left
  · exact ⟨initial, by rw [empty]; rfl, rfl⟩
  · rintro before state input ⟨held, accounts, rfl⟩ met
    obtain ⟨kept, follows⟩ := keeps _ input held met
    refine ⟨kept, ?_, by simp⟩
    rw [Runs.emitted_append]
    exact accounts_snoc _ _ _ _ accounts follows

end

end EventRecorder.Fifo
