import ReceiveOffload.Aggregate.VirtioHeader
import ReceiveOffload.OnesComplement
import ReceiveOffload.Flow.Pending
import ReceiveOffload.Segment.Edit

/-!
# Sealed Aggregates

An aggregate in storage is the first segment with the payloads of the others
behind it, so its headers still describe the first segment alone. Sealing makes
them describe the whole: the IP length covers the frame, the fields that change
from segment to segment are those of the last one, and the TCP checksum is made
anew. An aggregate of one segment leaves exactly as it arrived.

The IP checksum is patched for the changed length and not computed, so an
aggregate whose first segment arrived with a wrong one leaves with a wrong one.

The TCP checksum is either complete or left to a consumer, who is then told
where to complete it.

## Main definitions

* `Aggregate`: A sealed aggregate.
* `Headers.coverFrame`: Makes the IP header cover the whole frame.
* `Headers.stampChecksum`: Makes the TCP checksum.
* `Aggregate.ofStored`: Seals a stored frame.
* `Aggregate.virtioHeader`: What a consumer is told about the aggregate.
-/

namespace ReceiveOffload

/-- A sealed aggregate and how it was put together. -/
structure Aggregate where
  frame : Frame
  segments : Nat
  /-- The largest payload among the segments. -/
  segmentSize : UInt16
  headersLength : UInt16
  /-- Where the TCP header starts. -/
  transport : UInt16
  version : IpVersion
  /-- Whether the TCP checksum is complete. -/
  checksumComplete : Bool
  deriving DecidableEq, Repr

namespace Headers

/-- Makes the IP length cover all of the octets and carries the change over to
    the IP checksum. -/
def coverFrame (h : Headers) (b : Octets) : Except Failure Octets := do
  let (change, lengthened) ← h.setIpLength b b.length
  match ← h.ipv4Checksum lengthened with
  | some checksum =>
    (h.setIpv4Checksum lengthened
      (OnesComplement.update16 checksum change.before change.after)).result
  | none => return lengthened

/-- Makes the TCP checksum: the complete one, or the sum over the pseudo-header
    for a consumer to complete. -/
def stampChecksum (h : Headers) (b : Octets) (full : Bool) : Except Failure Octets := do
  let (source, destination) ← h.addresses b
  let pseudo := OnesComplement.pseudoHeader IpHeader.tcpProtocol source destination
    (UInt16.ofNat (b.length - h.transport.toNat))
  if full then
    let cleared ← (h.setTcpChecksum b 0).result
    let segment ← h.tcpOctets cleared
    (h.setTcpChecksum cleared (~~~ OnesComplement.sum segment pseudo)).result
  else
    (h.setTcpChecksum b (OnesComplement.sum [] pseudo)).result

end Headers

namespace Aggregate

/-- The octets of an aggregate of several segments: the stored ones with the
    headers made to describe the whole. -/
def sealOctets (h : Headers) (b : Octets) (p : Pending) : Except Failure Octets := do
  let covered ← h.coverFrame b
  let trailed ← (h.setTrailer covered p.trailer).result
  h.stampChecksum trailed p.extras.fullChecksum

/-- Seals a stored frame. Its headers are read again and not remembered. -/
def ofStored (frame : Frame) (p : Pending) : Except Failure Aggregate := do
  let h ← Headers.decode frame
  let alone := p.segments ≤ 1
  let octets ← if alone then pure frame.octets else sealOctets h frame.octets p
  return {
    frame := { frame with octets }
    segments := p.segments
    segmentSize := p.largestPayload
    headersLength := UInt16.ofNat h.length
    transport := h.transport
    version := h.version
    checksumComplete := alone || p.extras.fullChecksum
  }

/-- The number of octets of the frame. -/
def length (aggregate : Aggregate) : Nat :=
  aggregate.frame.length

/-- What a consumer is told about the aggregate. One of a single segment is an
    ordinary frame. -/
def virtioHeader (aggregate : Aggregate) : VirtioHeader :=
  if aggregate.segments ≤ 1 then { segmentKind := VirtioHeader.kindNone }
  else {
    flags :=
      if aggregate.checksumComplete then VirtioHeader.dataValid else VirtioHeader.needsChecksum
    segmentKind :=
      match aggregate.version with
      | .v4 => VirtioHeader.kindTcpV4
      | .v6 => VirtioHeader.kindTcpV6
    headersLength := aggregate.headersLength
    segmentSize := aggregate.segmentSize
    checksumStart := aggregate.transport
    checksumOffset := UInt16.ofNat tcpChecksumOffset
  }

/-- The aggregate with its virtio header in front. -/
def withVirtioHeader (aggregate : Aggregate) : Octets :=
  aggregate.virtioHeader.octets ++ aggregate.frame.octets

end Aggregate

end ReceiveOffload
