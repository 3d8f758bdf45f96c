import ReceiveOffload.Failure
import ReceiveOffload.Frame
import ReceiveOffload.Segment.Headers
import ReceiveOffload.Segment.Options

/-!
# Reading the Headers of a Segment

A frame is read from the outside in: the link header says where the IP header
starts, the IP header where the TCP header starts and where the datagram ends,
and the TCP header where the payload starts. Each layer is checked before a
field of the next is read, and the checks are made in a fixed order, so a frame
with several faults always names the same one.

The reads themselves are bounded and come to `outOfBounds` outside the frame.
The checks are there so that this never happens.

A frame longer than `maxFrameLength` is refused first. For that reason all
offsets that follow fit the widths in which `Headers` keeps them.

## Main definitions

* `networkOffset`: Where the IP header of a frame starts.
* `IpHeader`, `IpHeader.decode`: The IP header.
* `Headers.decode`: The headers of a segment.
-/

namespace ReceiveOffload

/-- The length of the largest version 4 datagram behind the longest link
    header. The length field of version 6 leaves its header out, so the largest
    version 6 datagrams are longer and are refused. -/
def maxFrameLength : Nat :=
  65535 + ethernetLength + 4 * maxTags

/-- Where the IP header starts, given that an ethertype lies at `position` and
    that so many more ethertypes may be looked at. -/
def ethertypeEnd (b : Octets) : (left position : Nat) → Except Failure Nat
  | 0, _ => .error (.malformed .unfinishedEthernet)
  | left + 1, position =>
    match b.word16? position with
    | none => .error (.malformed .unfinishedEthernet)
    | some ethertype =>
      if ethertype = 0x8100 ∨ ethertype = 0x88A8 then ethertypeEnd b left (position + 4)
      else if ethertype = 0x0800 ∨ ethertype = 0x86DD then .ok (position + 2)
      else .error (.malformed .foreignEthertype)

/-- Where the IP header of a frame starts. -/
def networkOffset (frame : Frame) : Except Failure Nat :=
  match frame.link with
  | .rawIp => .ok 0
  | .ethernet => do
    require (ethernetLength ≤ frame.length) .shortEthernet
    ethertypeEnd frame.octets (maxTags + 1) 12

/-- What an IP header says. -/
structure IpHeader where
  version : IpVersion
  /-- The length of the header. -/
  length : Nat
  /-- The length of the datagram, header included. -/
  datagramLength : Nat
  traits : IpTraits
  fragment : Bool
  deriving DecidableEq, Repr

namespace IpHeader

/-- The protocol number of TCP. -/
def tcpProtocol : UInt8 := 6

/-- Reads a version 4 header whose first octet is `first`. -/
def decodeV4 (first : UInt8) (ip : Octets) : Except Failure IpHeader := do
  let length := first.toNat % 16 * 4
  require (ipv4Length ≤ length ∧ length ≤ ip.length) .truncatedIpv4
  let protocol ← within (ip.octet? 9)
  require (protocol = tcpProtocol) .foreignProtocol
  let datagramLength ← within (ip.word16? 2)
  require (length ≤ datagramLength.toNat) .lengthBelowHeader
  let fragmentation ← within (ip.word16? 6)
  let trafficClass ← within (ip.octet? 1)
  let hopLimit ← within (ip.octet? 8)
  return {
    version := .v4
    length
    datagramLength := datagramLength.toNat
    traits := {
      trafficClass
      hopLimit
      fragmentFlags := UInt8.ofNat (fragmentation.toNat / 8192)
    }
    -- More fragments follow, or this one does not start at zero.
    fragment := fragmentation.toNat % 16384 ≠ 0
  }

/-- Reads a version 6 header whose first octet is `first`. -/
def decodeV6 (first : UInt8) (ip : Octets) : Except Failure IpHeader := do
  require (ipv6Length ≤ ip.length) .truncatedIpv6
  let protocol ← within (ip.octet? 6)
  require (protocol = tcpProtocol) .foreignProtocol
  let payloadLength ← within (ip.word16? 4)
  let second ← within (ip.octet? 1)
  let hopLimit ← within (ip.octet? 7)
  return {
    version := .v6
    length := ipv6Length
    datagramLength := ipv6Length + payloadLength.toNat
    traits := {
      trafficClass := UInt8.ofNat (first.toNat % 16 * 16 + second.toNat / 16)
      hopLimit
      fragmentFlags := 0
    }
    fragment := false
  }

/-- Reads the IP header at the start of the octets. -/
def decode (ip : Octets) : Except Failure IpHeader :=
  match ip.head? with
  | none => .error (.malformed .missingIp)
  | some first =>
    if first.toNat / 16 = 4 then decodeV4 first ip
    else if first.toNat / 16 = 6 then decodeV6 first ip
    else .error (.malformed .unknownVersion)

end IpHeader

namespace Headers

/-- Reads the headers of a segment. -/
def decode (frame : Frame) : Except Failure Headers := do
  let b := frame.octets
  require (b.length ≤ maxFrameLength) .oversized
  let network ← networkOffset frame
  let ip ← IpHeader.decode (b.drop network)
  require (ip.datagramLength ≤ (b.drop network).length) .lengthBeyondFrame
  let transport := network + ip.length
  let datagramEnd := network + ip.datagramLength
  require (transport + tcpLength ≤ datagramEnd) .truncatedTcp
  let tcp : Octets := (b.take datagramEnd).drop transport
  let dataOffset ← within (tcp.octet? 12)
  let transportLength := dataOffset.toNat / 16 * 4
  require (tcpLength ≤ transportLength ∧ transportLength ≤ tcp.length) .invalidDataOffset
  let optionsOffset := transport + tcpLength
  let options := (tcp.take transportLength).drop tcpLength
  let seq ← within (tcp.word32? 4)
  let ack ← within (tcp.word32? 8)
  let flags ← within (tcp.octet? 13)
  let window ← within (tcp.word16? 14)
  let urgent ← within (tcp.word16? 18)
  return {
    version := ip.version
    network := UInt16.ofNat network
    transport := UInt16.ofNat transport
    transportLength := UInt8.ofNat transportLength
    datagramEnd := UInt32.ofNat datagramEnd
    traits := ip.traits
    seq
    ack
    flags
    window
    urgent
    timestamp := (TcpOptions.timestamp? options).map fun found =>
      ⟨found.value, found.echo, UInt16.ofNat (optionsOffset + found.position)⟩
    options := TcpOptions.masked options
    fragment := ip.fragment
    padded := datagramEnd ≠ b.length
  }

end Headers

/-- A frame together with what its headers say. -/
structure Segment where
  frame : Frame
  headers : Headers
  deriving DecidableEq, Repr

/-- The segment that a frame carries. -/
def Segment.ofFrame (frame : Frame) : Except Failure Segment := do
  let headers ← Headers.decode frame
  return ⟨frame, headers⟩

end ReceiveOffload
