import ReceiveOffload.Octets

/-!
# The Internet Checksum

IP and TCP protect their headers by the one's-complement sum of 16-bit words.
Such a sum is a residue modulo 65535 with two representations of zero, so it
can be accumulated in any order and in any word size and folded at the end.
The accumulator here is a natural number, which never overflows; the octets
are added four at a time.

A stored checksum is the complement of the folded sum. When one covered field
changes, the stored value is patched from the old and the new field alone,
which also carries over a checksum that was wrong to begin with.

## Main definitions

* `OnesComplement.accumulate`: Adds octets to an unfolded sum.
* `OnesComplement.fold`: Folds the carries back until 16 bits remain.
* `OnesComplement.sum`: The folded sum of octets.
* `OnesComplement.pseudoHeader`: The sum over the header TCP adds for its checksum.
* `OnesComplement.update16`, `OnesComplement.update32`: Patches a stored checksum.
-/

namespace ReceiveOffload

namespace OnesComplement

/-- Adds the octets to an unfolded sum as big-endian words of four octets; what
    remains is added as a word of two octets, and a last single octet as the
    high octet of a word. -/
def accumulate : Octets → Nat → Nat
  | a :: b :: c :: d :: rest, total =>
    accumulate rest (total + (word32 (word16 a b) (word16 c d)).toNat)
  | [a, b, c], total => total + (word16 a b).toNat + (word16 c 0).toNat
  | [a, b], total => total + (word16 a b).toNat
  | [a], total => total + (word16 a 0).toNat
  | [], total => total

/-- Adds what lies above the low 16 bits back onto them, until nothing does. -/
def fold (total : Nat) : UInt16 :=
  if total ≤ 0xFFFF then UInt16.ofNat total else fold (total / 65536 + total % 65536)
termination_by total

/-- The folded sum of the octets, starting from `initial`. -/
def sum (b : Octets) (initial : Nat) : UInt16 :=
  fold (accumulate b initial)

/-- The unfolded sum over the pseudo-header: both addresses, the protocol and
    the length of the transport segment. -/
def pseudoHeader (protocol : UInt8) (source destination : Octets) (length : UInt16) : Nat :=
  accumulate (0 :: protocol :: Octets.ofWord16 length)
    (accumulate destination (accumulate source 0))

/-- The stored checksum after a covered 16-bit field changed from `old` to
    `new`. -/
def update16 (stored old new : UInt16) : UInt16 :=
  ~~~ fold ((~~~ stored).toNat + (~~~ old).toNat + new.toNat)

/-- The stored checksum after a covered 32-bit field changed from `old` to
    `new`: its two halves change one after the other. -/
def update32 (stored : UInt16) (old new : UInt32) : UInt16 :=
  let high := update16 stored (UInt16.ofNat (old.toNat / 65536)) (UInt16.ofNat (new.toNat / 65536))
  update16 high (UInt16.ofNat old.toNat) (UInt16.ofNat new.toNat)

end OnesComplement

end ReceiveOffload
