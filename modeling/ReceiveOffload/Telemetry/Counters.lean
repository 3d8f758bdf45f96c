import ReceiveOffload.AddressMap

/-!
# Counters

Statistics are 64-bit counters under 64-bit addresses. A counter that was
never raised is zero, and one that is full stays full instead of starting
over, so what a counter shows is the sum of what it was raised by for as long
as that sum fits. Addresses wrap around at the end of the address space.

The statistics of a flow are eight counters in a row. The number of aggregates
and the number of segments in them are raised together: the second is the
accumulator of the first, and sits right behind it.

## Main definitions

* `Counters`: The counters.
* `Counters.raise`, `Counters.raisePair`: Raise counters.
* `Statistic`: What is counted for a flow.
* `Counters.statistics`: All counters of a flow.
-/

namespace ReceiveOffload

/-- The sum of two counters, or the largest counter. -/
def cappedSum (a b : UInt64) : UInt64 :=
  UInt64.ofNat (min (a.toNat + b.toNat) (UInt64.size - 1))

/-- The counters that were ever raised. -/
structure Counters where
  values : AddressMap UInt64 := {}
  deriving DecidableEq, Repr

namespace Counters

/-- What the counter at an address shows. -/
def read (counters : Counters) (address : UInt64) : UInt64 :=
  counters.values.getD address 0

/-- Raises a counter. -/
def raise (counters : Counters) (address amount : UInt64) : Counters :=
  ⟨counters.values.insert address (cappedSum (counters.read address) amount)⟩

/-- Raises a counter and the accumulator behind it. -/
def raisePair (counters : Counters) (address amount accumulate : UInt64) : Counters :=
  (counters.raise address amount).raise (address + 8) accumulate

end Counters

/-- What is counted for a flow. -/
inductive Statistic where
  /-- Segments that are part of an aggregation, the first ones included. -/
  | segments
  /-- Segments that did not carry on where the aggregate ended. -/
  | unexpectedSeq
  /-- Segments that were lost. -/
  | discardedSegments
  /-- Aggregates that were handed on. -/
  | aggregations
  /-- Segments in the aggregates that were handed on. -/
  | aggregatedSegments
  | flushRequests
  | timeoutFlushes
  | timerUnavailable
  deriving DecidableEq, Repr

namespace Statistic

/-- The place of a statistic in the row of counters. -/
def place : Statistic → Nat
  | segments => 0
  | unexpectedSeq => 1
  | discardedSegments => 2
  | aggregations => 3
  | aggregatedSegments => 4
  | flushRequests => 5
  | timeoutFlushes => 6
  | timerUnavailable => 7

/-- The statistics in the order of their counters. -/
def all : List Statistic :=
  [segments, unexpectedSeq, discardedSegments, aggregations, aggregatedSegments,
    flushRequests, timeoutFlushes, timerUnavailable]

/-- The address of the counter of a flow whose counters start at `base`. -/
def address (statistic : Statistic) (base : UInt64) : UInt64 :=
  base + UInt64.ofNat (8 * statistic.place)

end Statistic

/-- All counters of a flow whose counters start at `base`, in order. -/
def Counters.statistics (counters : Counters) (base : UInt64) : List UInt64 :=
  Statistic.all.map fun statistic => counters.read (statistic.address base)

end ReceiveOffload
