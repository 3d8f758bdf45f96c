import ReceiveOffload.Failure
import ReceiveOffload.Timer.Setup

/-!
# Policies

How a flow is to be aggregated: how far an aggregate may grow, how long it may
stay open, whom to tell when it was open for too long, and where to keep the
books. Settings are what somebody asks for; a policy is settings that passed
the check, and carries the proof that they did. A policy that was never
checked cannot be made.

## Main definitions

* `Settings`: What is asked for, with the usual values where nothing is.
* `Policy`: Settings that make sense.
* `Settings.check`: The policy that the settings make.
* `Extras`: What an aggregate is to get besides.
-/

namespace ReceiveOffload

/-- The largest size that an aggregate may have. -/
def maxAggregateSize : Nat :=
  65535

/-- What is asked for. -/
structure Settings where
  /-- How many segments an aggregate may have. With fewer than two there is
      nothing to merge. -/
  segmentLimit : Nat := 64
  /-- How many octets an aggregate may have, headers included. -/
  sizeLimit : Nat := maxAggregateSize
  /-- How long an aggregate may stay open, in units of the granularity. -/
  timeout : Nat := 10
  granularity : Granularity := .millisecond
  /-- The pool that the timers are taken from. -/
  timerPool : Nat := 0
  completion : Option Completion := none
  /-- Where the counters of the flow start. -/
  statistics : UInt64 := 0
  /-- Where the metadata area of the flow starts. -/
  metadata : UInt64 := 0
  /-- Whether the segments of aggregates and the flush requests are counted. -/
  extendedStatistics : Bool := false
  deriving DecidableEq, Repr

/-- Settings that make sense. -/
structure Policy extends Settings where
  sizeLimit_le : sizeLimit ≤ maxAggregateSize
  timeout_pos : 0 < timeout
  deriving DecidableEq, Repr

/-- The policy that the settings make. -/
def Settings.check (settings : Settings) : Except Failure Policy :=
  if size : settings.sizeLimit ≤ maxAggregateSize then
    if timeout : 0 < settings.timeout then .ok { settings with
      sizeLimit_le := size
      timeout_pos := timeout }
    else .error (.invalidSettings .timeoutZero)
  else .error (.invalidSettings .sizeLimitTooLarge)

/-- The timer that a flow needs for an aggregate. -/
def Policy.timerSetup (policy : Policy) (flow : UInt64) : TimerSetup where
  pool := policy.timerPool
  duration := policy.timeout
  granularity := policy.granularity
  flow
  completion := policy.completion

/-- What an aggregate is to get besides. The choice is made when it is opened
    and holds until it is closed. -/
structure Extras where
  /-- The sizes of its segments go to the metadata. -/
  logSizes : Bool := false
  /-- Its TCP checksum is complete and not left to a consumer to complete. -/
  fullChecksum : Bool := false
  deriving DecidableEq, Repr

end ReceiveOffload
