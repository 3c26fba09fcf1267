import EventRecorder.Runs
import Mathlib.Data.Finset.Card
import Mathlib.Data.List.Nodup
import Mathlib.Tactic.Common

/-!
# The post office

Every process subscribes to mail types before it runs. `post_office_subscribe`
marks the process, appends its id to the row of each type in its mask, and waits
at a barrier until every participant has done the same. A process that is already
marked has been restarted and returns at once.

The rows are parts of one allocation. An append runs under a mutex and is one
step, as is each test and each arrival at the barrier; between the steps of one
caller any others may run. The barrier opens for as many callers as it was
initialised for, among them those with an empty mask, whose id is ignored.
-/

namespace EventRecorder.PostOffice

/-- `MT_SIZE`, the rows of the table of subscriptions. -/
def mtSize : Nat := 9

/-- The subscription tables of `post_office_t`. `subs` is the allocation of all rows,
which lie one behind the other. -/
structure Office where
  bSize : Nat
  subs : Nat → Int
  subi : Int → Nat
  sSize : Nat → Nat

/-- `post_office_init` for so many boxes besides that of the postman. The rows
hold whatever their memory held. -/
def postOfficeInit (boxes : Nat) (memory : Nat → Int) : Office where
  bSize := boxes + 1
  subs := memory
  subi _ := 0
  sSize _ := 0

/-- The number of callers that `post_office_init` initialises the barrier for, with so many
boxes besides that of the postman. -/
def barrierCount (boxes barrierOffset : Nat) : Nat := boxes + 1 + barrierOffset

/-- The position of `subs[row][i]` in the allocation. For an index that is too large it
is in the next row. -/
def Office.position (office : Office) (row i : Nat) : Nat := office.bSize * row + i

/-- The ids in a row, in the order of their subscription, as the postman will go through
them. -/
def Office.row (office : Office) (row : Nat) : List Int :=
  (List.range (office.sSize row)).map fun i => office.subs (office.position row i)

/-- The locked part of the loop in `post_office_subscribe`, which no other caller can be
in at the same time. -/
def Office.append (office : Office) (row : Nat) (id : Int) : Office :=
  { office with
    subs := Function.update office.subs (office.position row (office.sSize row)) id
    sSize := Function.update office.sSize row (office.sSize row + 1) }

/-- `post_office.subi[id] = 1`, by which a process that is restarted knows that it need
not subscribe again. -/
def Office.mark (office : Office) (id : Int) : Office :=
  { office with subi := Function.update office.subi id 1 }

/-- A participant: the arguments of its calls, which stay the same over its restarts. -/
structure Caller where
  id : Int
  mask : BitVec 32
  deriving DecidableEq

/-- `mt & (1 << row)`, for a row of the table. -/
def Caller.wants (caller : Caller) (row : Nat) : Bool := caller.mask.getLsbD row

/-- Where a caller is: outside the function, at its beginning, in the loop at a
row, before the barrier, or at the barrier since a generation of it. -/
inductive Pc where
  | outside
  | called
  | subscribing (row : Nat)
  | arriving
  | waiting (generation : Nat)
  deriving DecidableEq, Repr

/-- The office, the callers by their positions, and the barrier: the number of
callers it opens for, how often it has opened, and how many have arrived since.
`returned` counts the calls of a caller that have returned. -/
structure System where
  office : Office
  pc : Nat → Pc
  returned : Nat → Nat
  barrier : Nat
  generation : Nat
  arrived : Nat

/-- Before any call, with the barrier initialised for so many callers and nobody waiting
at it. -/
def System.initial (office : Office) (barrier : Nat) : System where
  office := office
  pc _ := .outside
  returned _ := 0
  barrier := barrier
  generation := 0
  arrived := 0

/-- A caller moves on. Nothing of the office changes with it. -/
def System.goto (sys : System) (caller : Nat) (pc : Pc) : System :=
  { sys with pc := Function.update sys.pc caller pc }

/-- A call returns, and is counted. The caller may call again later, when it has been
restarted. -/
def System.finish (sys : System) (caller : Nat) : System :=
  { sys with
    pc := Function.update sys.pc caller .outside
    returned := Function.update sys.returned caller (sys.returned caller + 1) }

/-- `pthread_barrier_wait`: the last of the callers that the barrier opens for releases
the others, and the barrier can be used again. -/
def System.arrive (sys : System) (caller : Nat) : System :=
  if sys.arrived + 1 = sys.barrier then
    { sys with generation := sys.generation + 1, arrived := 0 }.finish caller
  else { sys with arrived := sys.arrived + 1 }.goto caller (.waiting sys.generation)

/-- The next step of a caller in `post_office_subscribe`. Outside the function
it calls, for the first time or because its process was restarted; at the barrier
it may have to stay. -/
def subscribe (callers : List Caller) (sys : System) (k : Nat) : System :=
  match callers[k]? with
  | none => sys
  | some caller =>
    match sys.pc k with
    | .outside => sys.goto k .called
    | .called =>
      if caller.mask = 0 then sys.goto k .arriving
      else if sys.office.subi caller.id ≠ 0 then sys.finish k
      else { sys with office := sys.office.mark caller.id }.goto k (.subscribing 0)
    | .subscribing row =>
      if row < mtSize then
        if caller.wants row then
          { sys with office := sys.office.append row caller.id }.goto k (.subscribing (row + 1))
        else sys.goto k (.subscribing (row + 1))
      else sys.goto k .arriving
    | .arriving => sys.arrive k
    | .waiting generation => if sys.generation ≠ generation then sys.finish k else sys

/-- The row and the position in it that a step writes, if it is one that appends an id. -/
def written (callers : List Caller) (sys : System) (k : Nat) : Option (Nat × Nat) :=
  match callers[k]?, sys.pc k with
  | some caller, .subscribing row =>
    if row < mtSize ∧ caller.wants row then some (row, sys.office.sSize row) else none
  | _, _ => none

/-- The steps a caller can make, each with the state it leads to. A step that is not
possible leaves everything as it is. -/
inductive Moves (callers : List Caller) (sys : System) (k : Nat) : System → Prop where
  | stays : Moves callers sys k sys
  | calls (caller : Caller) (found : callers[k]? = some caller) (pc : sys.pc k = .outside) :
      Moves callers sys k (sys.goto k .called)
  | ignores (caller : Caller) (found : callers[k]? = some caller) (pc : sys.pc k = .called)
      (empty : caller.mask = 0) : Moves callers sys k (sys.goto k .arriving)
  | restarted (caller : Caller) (found : callers[k]? = some caller) (pc : sys.pc k = .called)
      (some : caller.mask ≠ 0) (marked : sys.office.subi caller.id ≠ 0) :
      Moves callers sys k (sys.finish k)
  | marks (caller : Caller) (found : callers[k]? = some caller) (pc : sys.pc k = .called)
      (some : caller.mask ≠ 0) (unmarked : sys.office.subi caller.id = 0) :
      Moves callers sys k
        ({ sys with office := sys.office.mark caller.id }.goto k (.subscribing 0))
  | appends (caller : Caller) (found : callers[k]? = some caller) (row : Nat)
      (pc : sys.pc k = .subscribing row) (below : row < mtSize) (wants : caller.wants row = true) :
      Moves callers sys k
        ({ sys with office := sys.office.append row caller.id }.goto k (.subscribing (row + 1)))
  | skips (caller : Caller) (found : callers[k]? = some caller) (row : Nat)
      (pc : sys.pc k = .subscribing row) (below : row < mtSize) (other : caller.wants row = false) :
      Moves callers sys k (sys.goto k (.subscribing (row + 1)))
  | subscribed (caller : Caller) (found : callers[k]? = some caller) (row : Nat)
      (pc : sys.pc k = .subscribing row) (last : mtSize ≤ row) :
      Moves callers sys k (sys.goto k .arriving)
  | waits (caller : Caller) (found : callers[k]? = some caller) (pc : sys.pc k = .arriving)
      (early : sys.arrived + 1 ≠ sys.barrier) :
      Moves callers sys k
        ({ sys with arrived := sys.arrived + 1 }.goto k (.waiting sys.generation))
  | releases (caller : Caller) (found : callers[k]? = some caller) (pc : sys.pc k = .arriving)
      (last : sys.arrived + 1 = sys.barrier) :
      Moves callers sys k
        ({ sys with generation := sys.generation + 1, arrived := 0 }.finish k)
  | leaves (caller : Caller) (found : callers[k]? = some caller) (generation : Nat)
      (pc : sys.pc k = .waiting generation) (released : sys.generation ≠ generation) :
      Moves callers sys k (sys.finish k)

/-- A step is one of the moves, so that proofs about runs go by cases on these and do
not unfold the function. -/
theorem subscribe_moves (callers : List Caller) (sys : System) (k : Nat) :
    Moves callers sys k (subscribe callers sys k) := by
  unfold subscribe
  split
  · exact .stays
  · rename_i caller found
    split
    · exact .calls caller found ‹_›
    · split_ifs with empty marked
      · exact .ignores caller found ‹_› empty
      · exact .restarted caller found ‹_› empty marked
      · exact .marks caller found ‹_› empty (not_not.mp marked)
    · rename_i row pc
      split_ifs with below wants
      · exact .appends caller found row pc below wants
      · exact .skips caller found row pc below (by simpa using wants)
      · exact .subscribed caller found row pc (not_lt.mp below)
    · rename_i pc
      unfold System.arrive
      split_ifs with last
      · exact .releases caller found pc last
      · exact .waits caller found pc last
    · rename_i generation pc
      split_ifs with released
      · exact .leaves caller found generation pc released
      · exact .stays

end EventRecorder.PostOffice
