import ReceiveOffload.AddressMap
import ReceiveOffload.Octets

/-!
# Metadata

The consumer of an aggregate can look up how it was put together in a memory
of octets that it shares with the engine. A flow has an area there: the number
of segments of the aggregate handed on last, in four octets, and behind it the
payload sizes of the segments, two octets each.

The memory is sparse and reads as zero where nothing was written.

## Main definitions

* `Metadata`: The memory.
* `Metadata.read`, `Metadata.write`: Runs of octets.
* `Metadata.countAt`, `Metadata.sizeAt`: The entries of an area.
-/

namespace ReceiveOffload

/-- The octets that were ever written. -/
structure Metadata where
  octets : AddressMap UInt8 := {}
  deriving DecidableEq, Repr

namespace Metadata

/-- Where the segment count lies in the area of a flow. -/
def countOffset : Nat := 0

/-- Where the segment sizes start in the area of a flow. -/
def sizesOffset : Nat := 4

/-- The address of the segment count of an area. -/
def countAddress (base : UInt64) : UInt64 :=
  base + UInt64.ofNat countOffset

/-- The address of a segment size of an area. -/
def sizeAddress (base : UInt64) (index : Nat) : UInt64 :=
  base + UInt64.ofNat (sizesOffset + 2 * index)

/-- The octet at an address. -/
def octet (metadata : Metadata) (address : UInt64) : UInt8 :=
  metadata.octets.getD address 0

/-- So many octets from an address on. -/
def read (metadata : Metadata) (address : UInt64) (count : Nat) : Octets :=
  (List.range count).map fun i => metadata.octet (address + UInt64.ofNat i)

/-- Writes octets from an address on. -/
def write (metadata : Metadata) (address : UInt64) : Octets → Metadata
  | [] => metadata
  | octet :: rest => write ⟨metadata.octets.insert address octet⟩ (address + 1) rest

/-- The number of segments that an area holds. -/
def countAt (metadata : Metadata) (base : UInt64) : UInt32 :=
  ((metadata.read (countAddress base) 4).word32? 0).getD 0

/-- A segment size that an area holds. -/
def sizeAt (metadata : Metadata) (base : UInt64) (index : Nat) : UInt16 :=
  ((metadata.read (sizeAddress base index) 2).word16? 0).getD 0

end Metadata

end ReceiveOffload
