import ReceiveOffload.Octets

/-!
# Segment Headers

What is known of a segment once its headers were read: where each header
starts, the fields on which merging decides, and the fields that an aggregate
takes over from its last segment.

The offsets and lengths are kept in the widths in which they are handed on,
and every one of them is small: a frame that could overflow them is refused
before anything is read. The derived lengths are natural numbers.

A segment can take part in an aggregation only if it is an acknowledgement
with data and nothing else. A segment that opens or closes a connection, that
carries urgent data or congestion marks, that is a fragment, or that has
padding behind its datagram, is understood but never merged.

## Main definitions

* `IpVersion`: The version of the IP header.
* `IpTraits`: The IP fields that every segment of an aggregate shares.
* `Timestamp`: The timestamp of a segment.
* `Trailer`: The fields that an aggregate takes from its last segment.
* `Headers`: What is known of a segment.
* `Headers.mergeable`: Whether a segment can take part in an aggregation.
-/

namespace ReceiveOffload

/-- The version of an IP header. -/
inductive IpVersion where
  | v4
  | v6
  deriving DecidableEq, Repr, Inhabited

/-- The IP fields that every segment of an aggregate shares, since only the
    first segment's copy is handed on. -/
structure IpTraits where
  /-- The type of service or traffic class. -/
  trafficClass : UInt8
  /-- The time to live or hop limit. -/
  hopLimit : UInt8
  /-- The three fragmentation flags, zero in version 6. -/
  fragmentFlags : UInt8
  deriving DecidableEq, Repr

/-- The congestion codepoint: the low two bits of the traffic class. -/
def IpTraits.ecn (traits : IpTraits) : UInt8 :=
  traits.trafficClass &&& 3

/-- The timestamp of a segment. -/
structure Timestamp where
  value : UInt32
  echo : UInt32
  /-- Where the value starts, from the start of the frame. -/
  offset : UInt16
  deriving DecidableEq, Repr

/-- The fields that an aggregate takes over from its last segment. -/
structure Trailer where
  ack : UInt32
  flags : UInt8
  window : UInt16
  urgent : UInt16
  /-- The timestamp value, zero without a timestamp. -/
  timestampValue : UInt32
  timestampEcho : Option UInt32
  deriving DecidableEq, Repr

namespace TcpFlag

def fin : UInt8 := 0x01
def syn : UInt8 := 0x02
def rst : UInt8 := 0x04
def psh : UInt8 := 0x08
def ack : UInt8 := 0x10
def urg : UInt8 := 0x20

end TcpFlag

/-- The length of an Ethernet header without tags. -/
def ethernetLength : Nat := 14

/-- The number of tags that an Ethernet header may carry. -/
def maxTags : Nat := 2

/-- The length of a version 4 header without options. -/
def ipv4Length : Nat := 20

/-- The length of a version 6 header. -/
def ipv6Length : Nat := 40

/-- The length of a TCP header without options. -/
def tcpLength : Nat := 20

/-- Where the checksum lies within a TCP header. -/
def tcpChecksumOffset : Nat := 16

/-- What is known of a segment once its headers were read. -/
structure Headers where
  version : IpVersion
  /-- Where the IP header starts. -/
  network : UInt16
  /-- Where the TCP header starts. -/
  transport : UInt16
  /-- The length of the TCP header. -/
  transportLength : UInt8
  /-- Where the IP datagram ends. -/
  datagramEnd : UInt32
  traits : IpTraits
  seq : UInt32
  ack : UInt32
  flags : UInt8
  window : UInt16
  urgent : UInt16
  timestamp : Option Timestamp
  /-- The TCP options with the timestamp's echo reply masked. -/
  options : Octets
  fragment : Bool
  /-- Whether the frame goes on behind the datagram. -/
  padded : Bool
  deriving DecidableEq, Repr

namespace Headers

/-- The number of octets before the TCP payload. -/
def length (h : Headers) : Nat :=
  h.transport.toNat + h.transportLength.toNat

/-- The number of octets of TCP payload. -/
def payloadLength (h : Headers) : Nat :=
  h.datagramEnd.toNat - h.length

/-- The congestion codepoint. -/
def ecn (h : Headers) : UInt8 :=
  h.traits.ecn

/-- Whether the sender asks for the data to be handed on at once. -/
def pushes (h : Headers) : Bool :=
  h.flags &&& TcpFlag.psh ≠ 0

/-- Whether the segment can take part in an aggregation at all. -/
def mergeable (h : Headers) : Bool :=
  (h.flags = TcpFlag.ack ∨ h.flags = TcpFlag.ack ||| TcpFlag.psh)
    ∧ 0 < h.payloadLength ∧ ¬ h.fragment ∧ ¬ h.padded

/-- Where the TCP checksum lies in the frame. -/
def checksumOffset (h : Headers) : Nat :=
  h.transport.toNat + tcpChecksumOffset

/-- The fields that an aggregate takes over if this is its last segment. -/
def trailer (h : Headers) : Trailer where
  ack := h.ack
  flags := h.flags
  window := h.window
  urgent := h.urgent
  timestampValue := (h.timestamp.map Timestamp.value).getD 0
  timestampEcho := h.timestamp.map Timestamp.echo

end Headers

end ReceiveOffload
