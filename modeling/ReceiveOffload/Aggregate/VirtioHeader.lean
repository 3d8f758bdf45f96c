import ReceiveOffload.Failure
import ReceiveOffload.Octets

/-!
# The Virtio Network Header

A consumer that can cut a large frame into segments again needs to be told how
it was put together. The virtio network header says so in twelve octets in
front of the frame: the length of the headers, the payload size of a segment,
and where a checksum is still to be completed.

The words of the header have the low octet first. Its last two octets belong to
a longer variant and are zero here; reading ignores them.

## Main definitions

* `VirtioHeader`: The header.
* `VirtioHeader.octets`: Its twelve octets.
* `VirtioHeader.encode`: Writes it over the start of a buffer.
* `VirtioHeader.decode`: Reads it from the start of a buffer.
-/

namespace ReceiveOffload

/-- The header that tells a consumer how to cut a frame into segments. -/
structure VirtioHeader where
  flags : UInt8 := 0
  /-- What kind of segments the frame is to be cut into. -/
  segmentKind : UInt8 := 0
  headersLength : UInt16 := 0
  segmentSize : UInt16 := 0
  /-- Where the checksummed octets start. -/
  checksumStart : UInt16 := 0
  /-- Where the checksum lies, counted from there. -/
  checksumOffset : UInt16 := 0
  deriving DecidableEq, Repr

namespace VirtioHeader

/-- The number of octets of the header. -/
def size : Nat := 12

/-- The kind of a frame that is not to be cut. -/
def kindNone : UInt8 := 0

/-- The kind of TCP segments over IP version 4. -/
def kindTcpV4 : UInt8 := 1

/-- The kind of TCP segments over IP version 6. -/
def kindTcpV6 : UInt8 := 4

/-- The flag of a checksum that holds the pseudo-header sum only. -/
def needsChecksum : UInt8 := 1

/-- The flag of a checksum that is complete and right. -/
def dataValid : UInt8 := 2

/-- The twelve octets of the header. -/
def octets (header : VirtioHeader) : Octets :=
  [header.flags, header.segmentKind]
    ++ Octets.ofWord16Little header.headersLength
    ++ Octets.ofWord16Little header.segmentSize
    ++ Octets.ofWord16Little header.checksumStart
    ++ Octets.ofWord16Little header.checksumOffset
    ++ [0, 0]

/-- Writes the header over the start of a buffer. -/
def encode (header : VirtioHeader) (buffer : Octets) : Except Failure Octets :=
  if buffer.length < size then .error .shortBuffer
  else .ok (header.octets ++ buffer.drop size)

/-- Reads the header from the start of a buffer. -/
def decode : Octets → Except Failure VirtioHeader
  | flags :: kind :: a :: b :: c :: d :: e :: f :: g :: h :: _ :: _ :: _ =>
    .ok {
      flags
      segmentKind := kind
      headersLength := word16 b a
      segmentSize := word16 d c
      checksumStart := word16 f e
      checksumOffset := word16 h g
    }
  | _ => .error .shortBuffer

end VirtioHeader

end ReceiveOffload
