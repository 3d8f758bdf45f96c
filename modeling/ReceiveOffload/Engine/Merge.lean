import ReceiveOffload.Engine.Output
import ReceiveOffload.Engine.Services
import ReceiveOffload.Flow.Verdict

/-!
# Opening, Extending and Closing Aggregates

How a segment changes the aggregate of its flow. The steps take the services
and the pending aggregate as they are and give back what they leave, so a flow
is only ever changed by being given its next state.

An aggregate needs a timer and storage. If there is no timer the segment is
handed back at once, and nothing is lost. If there is no storage for a segment
that opens an aggregate, the segment is lost; if there is none for one that is
appended, so is the aggregate, since a frame with a hole in it is of no use.
Whichever way an aggregate ends, its timer and its frame are given back.

The timer of an aggregate that is closed by a segment which opens the next one
is started over for the next one. It can be gone, because it fired and nobody
has dealt with that yet; then it is replaced.

## Main definitions

* `Turn`: What a call leaves behind.
* `Services.openAggregate`: Opens an aggregate with a segment.
* `Services.appendSegment`: Appends a segment to an aggregate.
* `Services.abandon`: Drops an aggregate.
* `Services.closeAggregate`: Closes an aggregate and hands it out.
* `Services.onIdle`: A segment of a flow without an aggregate.
* `Services.closeAround`: A segment that closes the aggregate before it.
* `Services.onPending`: A segment of a flow with an aggregate.
-/

namespace ReceiveOffload

/-- What a call leaves behind: what it hands out, the aggregate that the flow
    has now, and the services. -/
structure Turn where
  output : Output
  flow : Option Pending
  services : Services
  deriving DecidableEq, Repr

namespace Services

/-- Writes the payload size of a segment to the metadata, if the aggregate is
    to have that. -/
def logSize (s : Services) (p : Pending) (h : Headers) : Pending × Services :=
  if p.extras.logSizes then
    let address := Metadata.sizeAddress p.metadata p.sizesLogged.toNat
    let size := Octets.ofWord16 (UInt16.ofNat h.payloadLength)
    (p.logged, { s with metadata := s.metadata.write address size })
  else (p, s)

/-- Opens an aggregate with a segment. Without storage the segment is lost and
    the timer given back. -/
def openAggregate (s : Services) (flow : UInt64) (segment : Segment) (timer : TimerId)
    (policy : Policy) (extras : Extras) : Option Pending × Services :=
  match s.storeFrame segment.frame with
  | (.error cause, s) =>
    (none,
      ((s.note (.segmentDropped flow cause)).releaseTimer timer).count
        policy.statistics .discardedSegments 1)
  | (.ok frame, s) =>
    let opened := Pending.ofSegment segment timer frame policy extras
    let (p, s) := s.logSize opened segment.headers
    (some p,
      (s.count p.statistics .segments 1).note (.aggregationStarted flow segment.headers.seq))

/-- Appends a segment to an aggregate. -/
def appendSegment (s : Services) (p : Pending) (segment : Segment) :
    Except Failure Pending × Services :=
  match s.extendFrame p.frame segment.frame segment.headers.length with
  | (.error cause, s) => (.error cause, s)
  | (.ok length, s) =>
    let (p, s) := s.logSize (p.grow segment.headers length) segment.headers
    (.ok p,
      (s.count p.statistics .segments 1).note (.segmentMerged p.segments p.length.toNat))

/-- Drops an aggregate. -/
def abandon (s : Services) (p : Pending) : Services :=
  (((s.releaseTimer p.timer).discardFrame p.frame).note (.aggregateDiscarded p.segments)).count
    p.statistics .discardedSegments p.segments

/-- Counts an aggregate that is handed out. -/
def countAggregate (s : Services) (p : Pending) : Services :=
  let address := Statistic.aggregations.address p.statistics
  let counters :=
    if p.extendedStatistics then s.counters.raisePair address 1 (UInt64.ofNat p.segments)
    else s.counters.raise address 1
  { s with counters }

/-- Closes an aggregate and hands it out, unless its frame is missing or
    cannot be made sense of. The timer is not touched. -/
def closeAggregate (s : Services) (p : Pending) : Option Aggregate × Services :=
  let (taken, s) := s.takeFrame p.frame
  let sealed : Except Failure Aggregate :=
    match taken with
    | none => .error (.malformed .missingAggregate)
    | some frame => Aggregate.ofStored frame p
  let count := Octets.ofWord32 (UInt32.ofNat p.segments)
  let s := { s with metadata := s.metadata.write (Metadata.countAddress p.metadata) count }
  match sealed with
  | .ok aggregate => (some aggregate, s.countAggregate p)
  | .error cause =>
    (none,
      (s.note (.aggregateDropped p.segments cause)).count
        p.statistics .discardedSegments p.segments)

/-- A segment of a flow without an aggregate. -/
def onIdle (s : Services) (flow : UInt64) (segment : Segment) (policy : Policy)
    (extras : Extras) : Turn :=
  if segment.canOpen policy then
    match s.armTimer (policy.timerSetup flow) with
    | (.error cause, s) => {
        output := .handBack { timerUnavailable := true } segment.frame
        flow := none
        services := (s.note (.flushedSynchronously flow cause)).count
          policy.statistics .timerUnavailable 1
      }
    | (.ok timer, s) =>
      match s.openAggregate flow segment timer policy extras with
      | (some p, s) => ⟨{ disposition := { newAggregationStarted := true } }, some p, s⟩
      | (none, s) => ⟨{ disposition := { segmentDiscarded := true } }, none, s⟩
  else {
    output := .handBack { flushNow := true } segment.frame
    flow := none
    services := s.note (.passedThrough flow)
  }

/-- A timer for the next aggregate of a flow: the one of the last aggregate,
    started over, or a new one. -/
def renewTimer (s : Services) (flow : UInt64) (timer : TimerId) (policy : Policy) :
    Except Failure TimerId × Services :=
  match s.restartTimer timer with
  | (.ok _, s) => (.ok timer, s)
  | (.error cause, s) =>
    ((s.note (.timerReplaced flow cause)).releaseTimer timer).armTimer
      (policy.timerSetup flow)

/-- Moves a segment through storage, so that it leaves as the aggregate before
    it did. -/
def relay (s : Services) (frame : Frame) : Except Failure Frame × Services :=
  match s.storeFrame frame with
  | (.error cause, s) => (.error cause, s)
  | (.ok id, s) =>
    match s.takeFrame id with
    | (some relayed, s) => (.ok relayed, s)
    | (none, s) => (.error (.malformed .vanishedStaging), s)

/-- Closes the aggregate and hands the segment out behind it. -/
def closeThenPass (s : Services) (flow : UInt64) (p : Pending) (segment : Segment)
    (policy : Policy) : Turn :=
  let (aggregate, s) := (s.releaseTimer p.timer).closeAggregate p
  let closed := Output.ofClosing aggregate { flushNow := true }
  match s.relay segment.frame with
  | (.ok relayed, s) => ⟨closed.withSegment relayed, none, s⟩
  | (.error cause, s) => {
      output := closed.also { segmentDiscarded := true }
      flow := none
      services := (s.note (.closingSegmentDropped flow cause)).count
        policy.statistics .discardedSegments 1
    }

/-- Closes the aggregate and opens the next one with the segment. -/
def closeThenOpen (s : Services) (flow : UInt64) (p : Pending) (segment : Segment)
    (policy : Policy) (extras : Extras) : Turn :=
  let (aggregate, s) := s.closeAggregate p
  let closed := Output.ofClosing aggregate { flushNow := true }
  match s.renewTimer flow p.timer policy with
  | (.error cause, s) => {
      output := (closed.also { flushNow := true, timerUnavailable := true }).withSegment
        segment.frame
      flow := none
      services := (s.note (.flushedSynchronously flow cause)).count
        policy.statistics .timerUnavailable 1
    }
  | (.ok timer, s) =>
    match s.openAggregate flow segment timer policy extras with
    | (some next, s) => ⟨closed.also { newAggregationStarted := true }, some next, s⟩
    | (none, s) => ⟨closed.also { segmentDiscarded := true }, none, s⟩

/-- A segment that closes the aggregate before it. -/
def closeAround (s : Services) (flow : UInt64) (p : Pending) (segment : Segment)
    (policy : Policy) (extras : Extras) : Turn :=
  if segment.canOpen policy then s.closeThenOpen flow p segment policy extras
  else s.closeThenPass flow p segment policy

/-- Appends the segment and leaves the aggregate open. -/
def merge (s : Services) (flow : UInt64) (p : Pending) (segment : Segment) : Turn :=
  match s.appendSegment p segment with
  | (.ok p, s) => ⟨{ disposition := { aggregated := true } }, some p, s⟩
  | (.error cause, s) => {
      output := { disposition := { aggregationDiscarded := true } }
      flow := none
      services := (s.note (.appendFailed flow cause)).abandon p
    }

/-- Appends the segment and closes the aggregate. -/
def mergeThenClose (s : Services) (flow : UInt64) (p : Pending) (segment : Segment) : Turn :=
  match (s.releaseTimer p.timer).appendSegment p segment with
  | (.ok p, s) =>
    let (aggregate, s) := s.closeAggregate p
    ⟨.ofClosing aggregate { flushNow := true }, none, s⟩
  | (.error cause, s) => {
      output := { disposition := { aggregationDiscarded := true } }
      flow := none
      services := (s.note (.closingAppendFailed flow cause)).abandon p
    }

/-- A segment of a flow with an aggregate. -/
def onPending (s : Services) (flow : UInt64) (p : Pending) (segment : Segment)
    (policy : Policy) (extras : Extras) : Turn :=
  match p.verdict segment policy with
  | .merge => s.merge flow p segment
  | .mergeThenClose => s.mergeThenClose flow p segment
  | .outOfSequence =>
    let s := s.note (.unexpectedSeq flow p.nextSeq segment.headers.seq)
    (s.count p.statistics .unexpectedSeq 1).closeAround flow p segment policy extras
  | .incompatible =>
    (s.note (.incompatible flow)).closeAround flow p segment policy extras
  | .oversized size =>
    (s.note (.sizeExceeded flow size policy.sizeLimit)).closeAround flow p segment policy extras

end Services

end ReceiveOffload
