/-!
# Timer Setups and Expiries

What is asked of the timers and what they answer with. A setup names the
pool that the slot is to come from, how long the timer runs, the flow that it
is for, and whom to tell when the flow's aggregate was closed by it. An expiry
gives all of that back.

A handle names one arming of a slot and not the slot itself. The generation in
it tells the armings of a slot apart, so a handle that outlives its arming
matches nothing.

## Main definitions

* `Granularity`: The unit in which a duration is given.
* `Completion`: Whom to tell about an aggregate that timed out.
* `TimerId`: The name of one arming of a timer slot.
* `TimerSetup`: What a timer is asked for.
* `Expiry`: A timer that ran out.
-/

namespace ReceiveOffload

/-- The unit in which the duration of a timer is given. -/
inductive Granularity where
  | millisecond
  | tenMilliseconds
  | hundredMilliseconds
  | second
  deriving DecidableEq, Repr, Inhabited

/-- The length of the unit in milliseconds. -/
def Granularity.milliseconds : Granularity → Nat
  | millisecond => 1
  | tenMilliseconds => 10
  | hundredMilliseconds => 100
  | second => 1000

/-- Whom to tell about an aggregate that timed out, and a word to tell along
    with it. -/
structure Completion where
  receiver : Nat
  argument : UInt64
  deriving DecidableEq, Repr

/-- The text that stands for a completion: only the argument can be shown. -/
def Completion.describe (completion : Completion) : String :=
  "Completion \x7b arg: " ++ toString completion.argument.toNat ++ " \x7d"

/-- The name of one arming of a timer slot. -/
structure TimerId where
  pool : Nat
  slot : Nat
  generation : UInt32
  deriving DecidableEq, Repr

/-- The text that stands for a handle. -/
def TimerId.describe (handle : TimerId) : String :=
  "TimerHandle \x7b pool: " ++ toString handle.pool ++ ", slot: " ++ toString handle.slot
    ++ ", generation: " ++ toString handle.generation.toNat ++ " \x7d"

/-- What a timer is asked for. -/
structure TimerSetup where
  pool : Nat
  duration : Nat
  granularity : Granularity := .millisecond
  /-- The address of the flow that the timer is for. -/
  flow : UInt64
  completion : Option Completion := none
  deriving DecidableEq, Repr

/-- How long the timer is to run, in milliseconds. -/
def TimerSetup.milliseconds (setup : TimerSetup) : Nat :=
  setup.duration * setup.granularity.milliseconds

/-- A timer that ran out. -/
structure Expiry where
  handle : TimerId
  flow : UInt64
  completion : Option Completion
  /-- When the timer was to run out. -/
  deadline : Nat
  deriving DecidableEq, Repr

namespace Expiry

/-- Puts an expiry in front of the first one that is not earlier. -/
def insertByDeadline (expiry : Expiry) : List Expiry → List Expiry
  | [] => [expiry]
  | other :: rest =>
    if expiry.deadline ≤ other.deadline then expiry :: other :: rest
    else other :: insertByDeadline expiry rest

/-- The expiries by deadline; those of one deadline keep their order. -/
def sortByDeadline : List Expiry → List Expiry
  | [] => []
  | expiry :: rest => insertByDeadline expiry (sortByDeadline rest)

end Expiry

end ReceiveOffload
