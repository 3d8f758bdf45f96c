import ReceiveOffload.Failure
import ReceiveOffload.Segment.Headers

/-!
# Changing the Headers of a Segment

Once the headers of a frame are known, their fields can be changed in place:
the IP length when the frame has grown, the checksums, and the fields that an
aggregate takes over from its last segment. All offsets come from the headers,
so this is the only module that knows where a field is to be written.

The buffer need not be the frame that was read, and a write outside it fails.
Fields that are written together are written in a fixed order, and a failure
keeps the ones before it.

## Main definitions

* `Headers.ipLengthField?`: The IP length field and its value for a frame length.
* `Headers.setIpLength`: Sets the IP length.
* `Headers.ipv4Checksum`, `Headers.setIpv4Checksum`: The IP header checksum.
* `Headers.setTrailer`: Sets the fields that come from another segment.
* `Headers.setTcpChecksum`: Sets the TCP checksum.
* `Headers.addresses`: The source and destination addresses.
-/

namespace ReceiveOffload

/-- The value of a 16-bit field before and after it was set. -/
structure FieldChange where
  before : UInt16
  after : UInt16
  deriving DecidableEq, Repr

/-- The string written, provided that every field was. -/
def Written.result (w : Written) : Except Failure Octets :=
  if w.complete then .ok w.octets else .error .outOfBounds

namespace Headers

/-- Where the IP length field lies and what it says of a frame of the given
    length, provided that the frame reaches behind what the field leaves out. -/
def ipLengthField? (h : Headers) (frameLength : Nat) : Option (Nat × UInt16) :=
  let network := h.network.toNat
  match h.version with
  | .v4 =>
    if network ≤ frameLength then
      some (network + 2, UInt16.ofNat (frameLength - network))
    else none
  | .v6 =>
    if network + ipv6Length ≤ frameLength then
      some (network + 4, UInt16.ofNat (frameLength - network - ipv6Length))
    else none

/-- Sets the IP length so that the datagram covers a frame of the given
    length. -/
def setIpLength (h : Headers) (b : Octets) (frameLength : Nat) :
    Except Failure (FieldChange × Octets) := do
  let (offset, after) ← within (h.ipLengthField? frameLength)
  let before ← within (b.word16? offset)
  let written ← within (b.overwrite? offset (Octets.ofWord16 after))
  return (⟨before, after⟩, written)

/-- Where the version 4 header checksum lies. -/
def ipv4ChecksumOffset (h : Headers) : Nat :=
  h.network.toNat + 10

/-- The version 4 header checksum; version 6 has none. -/
def ipv4Checksum (h : Headers) (b : Octets) : Except Failure (Option UInt16) :=
  match h.version with
  | .v4 => do
    let checksum ← within (b.word16? h.ipv4ChecksumOffset)
    return some checksum
  | .v6 => return none

/-- Sets the version 4 header checksum; version 6 has none. -/
def setIpv4Checksum (h : Headers) (b : Octets) (checksum : UInt16) : Written :=
  match h.version with
  | .v4 => b.applyPatches [⟨h.ipv4ChecksumOffset, Octets.ofWord16 checksum⟩]
  | .v6 => ⟨b, true⟩

/-- The patches that put the fields of another segment into this one. The
    timestamp is set only if both segments carry one. -/
def trailerPatches (h : Headers) (trailer : Trailer) : List Patch :=
  let transport := h.transport.toNat
  let fields : List Patch := [
    ⟨transport + 8, Octets.ofWord32 trailer.ack⟩,
    ⟨transport + 13, [trailer.flags]⟩,
    ⟨transport + 14, Octets.ofWord16 trailer.window⟩,
    ⟨transport + 18, Octets.ofWord16 trailer.urgent⟩
  ]
  match h.timestamp, trailer.timestampEcho with
  | some timestamp, some echo =>
    let offset := timestamp.offset.toNat
    fields ++ [
      ⟨offset, Octets.ofWord32 trailer.timestampValue⟩,
      ⟨offset + 4, Octets.ofWord32 echo⟩
    ]
  | _, _ => fields

/-- Sets the acknowledgement, the flags, the window, the urgent pointer and
    the timestamp to those of another segment. -/
def setTrailer (h : Headers) (b : Octets) (trailer : Trailer) : Written :=
  b.applyPatches (h.trailerPatches trailer)

/-- Sets the TCP checksum. -/
def setTcpChecksum (h : Headers) (b : Octets) (checksum : UInt16) : Written :=
  b.applyPatches [⟨h.checksumOffset, Octets.ofWord16 checksum⟩]

/-- Where the source address starts, and the length of an address. -/
def addressField (h : Headers) : Nat × Nat :=
  match h.version with
  | .v4 => (h.network.toNat + 12, 4)
  | .v6 => (h.network.toNat + 8, 16)

/-- The source and destination addresses. -/
def addresses (h : Headers) (b : Octets) : Except Failure (Octets × Octets) := do
  let (offset, length) := h.addressField
  let source ← within (b.slice? offset length)
  let destination ← within (b.slice? (offset + length) length)
  return (source, destination)

/-- The TCP header and everything behind it. -/
def tcpOctets (h : Headers) (b : Octets) : Except Failure Octets :=
  if h.transport.toNat ≤ b.length then .ok (b.drop h.transport.toNat)
  else .error .outOfBounds

end Headers

end ReceiveOffload
