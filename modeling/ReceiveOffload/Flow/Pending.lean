import ReceiveOffload.Frame.Storage
import ReceiveOffload.Policy
import ReceiveOffload.Segment.Decode

/-!
# Pending Aggregates

What is remembered of an aggregate that is still open: which timer and which
stored frame belong to it, what its next segment has to look like, and what is
needed to close it. A flow without an aggregate has nothing to remember, so the
state of a flow is an optional pending aggregate, and an aggregate without a
timer or without a frame cannot be expressed.

A segment continues an aggregate when the fields that only the first segment's
headers carry are the same in both, and when it does not acknowledge less than
was acknowledged already. Once a segment shorter than another was merged,
nothing may follow it: a consumer that cuts the aggregate into equal pieces
could not find the boundary behind it.

## Main definitions

* `Pending`: An aggregate that is still open.
* `Pending.ofSegment`: The aggregate that a segment opens.
* `Pending.grow`: The aggregate after a segment was appended.
* `Pending.differs`, `Pending.acksLess`: Why a segment cannot be appended.
* `Pending.logged`: The aggregate after one more segment size was written.
-/

namespace ReceiveOffload

/-- An aggregate that is still open. -/
structure Pending where
  timer : TimerId
  frame : FrameId
  /-- The number of segments merged. -/
  segments : Nat
  /-- The largest payload among the segments. -/
  largestPayload : UInt16
  /-- Where the next segment has to start. -/
  nextSeq : UInt32
  /-- What the last segment acknowledged. -/
  lastAck : UInt32
  /-- The timestamp value of the segments, if they carry timestamps. -/
  timestamp : Option UInt32
  /-- The length of the stored frame. -/
  length : UInt32
  /-- The number of octets before the payload. -/
  headersLength : UInt16
  traits : IpTraits
  options : Octets
  /-- The fields of the last segment that the aggregate takes over. -/
  trailer : Trailer
  /-- Whether a segment shorter than another was merged. -/
  complete : Bool
  extras : Extras
  extendedStatistics : Bool
  statistics : UInt64
  metadata : UInt64
  /-- The number of segment sizes written to the metadata. -/
  sizesLogged : UInt16
  deriving DecidableEq, Repr

namespace Pending

/-- The aggregate that a segment opens. -/
def ofSegment (segment : Segment) (timer : TimerId) (frame : FrameId) (policy : Policy)
    (extras : Extras) : Pending :=
  let h := segment.headers
  {
    timer
    frame
    segments := 1
    largestPayload := UInt16.ofNat h.payloadLength
    nextSeq := h.seq + UInt32.ofNat h.payloadLength
    lastAck := h.ack
    timestamp := h.timestamp.map Timestamp.value
    length := UInt32.ofNat segment.frame.length
    headersLength := UInt16.ofNat h.length
    traits := h.traits
    options := h.options
    trailer := h.trailer
    complete := false
    extras
    extendedStatistics := policy.extendedStatistics
    statistics := policy.statistics
    metadata := policy.metadata
    sizesLogged := 0
  }

/-- The aggregate after a segment was appended; `length` is what the stored
    frame has come to. -/
def grow (p : Pending) (h : Headers) (length : Nat) : Pending :=
  let payload := UInt16.ofNat h.payloadLength
  { p with
    segments := p.segments + 1
    largestPayload := if p.largestPayload < payload then payload else p.largestPayload
    nextSeq := h.seq + UInt32.ofNat h.payloadLength
    lastAck := h.ack
    length := UInt32.ofNat length
    trailer := h.trailer
    complete := p.complete || payload < p.largestPayload }

/-- Whether a field that only the first segment's headers carry is another in
    this segment: a timestamp value, the length of the headers, an IP field, or
    any octet of the options but the echo reply. -/
def differs (p : Pending) (h : Headers) : Bool :=
  h.timestamp.map Timestamp.value ≠ p.timestamp
    ∨ h.length ≠ p.headersLength.toNat
    ∨ h.traits ≠ p.traits
    ∨ h.options ≠ p.options

/-- Whether the segment acknowledges less than the last one did. Numbers are
    compared around the circle: less is up to half a turn back. -/
def acksLess (p : Pending) (h : Headers) : Bool :=
  UInt32.size / 2 ≤ (h.ack - p.lastAck).toNat

/-- The aggregate after one more segment size was written. -/
def logged (p : Pending) : Pending :=
  { p with sizesLogged := p.sizesLogged + 1 }

/-- The state of the aggregate as a word: the congestion codepoint in the low
    two bits, then one bit each for the timestamp, for nothing may follow, and
    for what the aggregate is to get besides. -/
def stateBits (p : Pending) : Nat :=
  let bit := fun (b : Bool) (place : Nat) => if b then 1 <<< place else 0
  p.traits.ecn.toNat + bit p.timestamp.isSome 2 + bit p.complete 3 + bit p.extras.logSizes 4
    + bit p.extras.fullChecksum 5 + bit p.extendedStatistics 6

end Pending

/-- Whether a segment can open an aggregate: more could be merged with it, and
    nobody waits for its data. -/
def Segment.canOpen (segment : Segment) (policy : Policy) : Bool :=
  ¬ segment.headers.pushes ∧ segment.headers.mergeable
    ∧ 1 < policy.segmentLimit ∧ segment.frame.length < policy.sizeLimit

end ReceiveOffload
