/-!
# Dispositions

What became of a call: the caller reads off it what to do next. Several things
can be true at once, as when a closed aggregate is handed out and the arriving
segment opens the next one, so a disposition is a set of facts.

The two questions a caller asks are whether there is anything to hand on and
whether any data was lost.

## Main definitions

* `Disposition`: The set of facts.
* `Disposition.union`: What two parts of a call say together.
* `Disposition.hasOutput`: Whether there is a frame to hand on.
* `Disposition.reportsLoss`: Whether data was lost.
* `Disposition.names`, `Disposition.toBits`, `Disposition.ofBits`: The set as
  names and as a word.
-/

namespace ReceiveOffload

/-- What became of a call. -/
structure Disposition where
  /-- The segment became part of the aggregate. -/
  aggregated : Bool := false
  /-- The aggregate, or the segment by itself, is to be handed on. -/
  flushNow : Bool := false
  /-- The arriving segment was lost. -/
  segmentDiscarded : Bool := false
  /-- There was no timer, so the segment is to be handed on by itself. -/
  timerUnavailable : Bool := false
  /-- The aggregate was lost. -/
  aggregationDiscarded : Bool := false
  /-- The segment opened an aggregate. -/
  newAggregationStarted : Bool := false
  /-- There was nothing to flush. -/
  noAggregation : Bool := false
  /-- The aggregate was flushed on request. -/
  flushAggregationDone : Bool := false
  /-- The frame was refused before anything was done. -/
  badFrame : Bool := false
  deriving DecidableEq, Repr

namespace Disposition

/-- The facts of both. -/
def union (a b : Disposition) : Disposition where
  aggregated := a.aggregated || b.aggregated
  flushNow := a.flushNow || b.flushNow
  segmentDiscarded := a.segmentDiscarded || b.segmentDiscarded
  timerUnavailable := a.timerUnavailable || b.timerUnavailable
  aggregationDiscarded := a.aggregationDiscarded || b.aggregationDiscarded
  newAggregationStarted := a.newAggregationStarted || b.newAggregationStarted
  noAggregation := a.noAggregation || b.noAggregation
  flushAggregationDone := a.flushAggregationDone || b.flushAggregationDone
  badFrame := a.badFrame || b.badFrame

/-- Whether there is at least one frame to hand on. -/
def hasOutput (d : Disposition) : Bool :=
  d.flushNow || d.flushAggregationDone || d.timerUnavailable

/-- Whether data was lost. -/
def reportsLoss (d : Disposition) : Bool :=
  d.segmentDiscarded || d.aggregationDiscarded

/-- The facts in order, each with whether it holds. -/
def facts (d : Disposition) : List (String × Bool) := [
  ("AGGREGATED", d.aggregated),
  ("FLUSH_NOW", d.flushNow),
  ("SEGMENT_DISCARDED", d.segmentDiscarded),
  ("TIMER_UNAVAILABLE", d.timerUnavailable),
  ("AGGREGATION_DISCARDED", d.aggregationDiscarded),
  ("NEW_AGGREGATION_STARTED", d.newAggregationStarted),
  ("NO_AGGREGATION", d.noAggregation),
  ("FLUSH_AGG_DONE", d.flushAggregationDone),
  ("BAD_FRAME", d.badFrame)
]

/-- The names of the facts that hold, in order. -/
def names (d : Disposition) : List String :=
  (d.facts.filter Prod.snd).map Prod.fst

/-- The number whose binary digits, lowest first, are the given ones. -/
def ofDigits : List Bool → Nat
  | [] => 0
  | digit :: rest => (if digit then 1 else 0) + 2 * ofDigits rest

/-- The facts as the bits of a word, in order from the lowest. -/
def toBits (d : Disposition) : Nat :=
  ofDigits (d.facts.map Prod.snd)

/-- The facts whose bits are set; other bits mean nothing. -/
def ofBits (bits : Nat) : Disposition where
  aggregated := bits.testBit 0
  flushNow := bits.testBit 1
  segmentDiscarded := bits.testBit 2
  timerUnavailable := bits.testBit 3
  aggregationDiscarded := bits.testBit 4
  newAggregationStarted := bits.testBit 5
  noAggregation := bits.testBit 6
  flushAggregationDone := bits.testBit 7
  badFrame := bits.testBit 8

end Disposition

end ReceiveOffload
