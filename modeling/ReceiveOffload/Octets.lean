/-!
# Octets

Frames, headers and metadata are strings of octets in which fields of one, two
or four octets sit at known offsets, most significant octet first. Reading a
field either finds all of its octets or says that the string is too short, and
writing one replaces octets in place and never changes the length.

Several fields are usually written together, and a string that is too short
for one of them still keeps the ones written before it. `applyPatches` is that
rule: it goes through the patches in order and stops at the first that does
not fit.

The words are built by arithmetic on natural numbers and not by shifts, since
that is the form in which sums over them are reasoned about.

## Main definitions

* `Octets`: A string of octets.
* `Octets.word16?`, `Octets.word32?`: The field at an offset.
* `Octets.ofWord16`, `Octets.ofWord32`: The octets of a field.
* `Octets.slice?`: A run of octets.
* `Octets.overwrite?`: Replaces a run of octets.
* `Patch`, `Octets.applyPatches`: Several replacements, in order.
-/

namespace ReceiveOffload

/-- A string of octets. -/
abbrev Octets := List UInt8

/-- The 16-bit word with the given high and low octets. -/
def word16 (high low : UInt8) : UInt16 :=
  UInt16.ofNat (high.toNat * 256 + low.toNat)

/-- The 32-bit word with the given high and low halves. -/
def word32 (high low : UInt16) : UInt32 :=
  UInt32.ofNat (high.toNat * 65536 + low.toNat)

namespace Octets

/-- The two octets of a word, the high one first. -/
def ofWord16 (w : UInt16) : Octets :=
  [UInt8.ofNat (w.toNat / 256), UInt8.ofNat w.toNat]

/-- The four octets of a word, the highest first. -/
def ofWord32 (w : UInt32) : Octets :=
  ofWord16 (UInt16.ofNat (w.toNat / 65536)) ++ ofWord16 (UInt16.ofNat w.toNat)

/-- The two octets of a word, the low one first. -/
def ofWord16Little (w : UInt16) : Octets :=
  [UInt8.ofNat w.toNat, UInt8.ofNat (w.toNat / 256)]

/-- The octet at an offset. -/
def octet? (b : Octets) (i : Nat) : Option UInt8 :=
  b[i]?

/-- The 16-bit field at an offset. -/
def word16? (b : Octets) (i : Nat) : Option UInt16 := do
  let high ← b[i]?
  let low ← b[i + 1]?
  return word16 high low

/-- The 32-bit field at an offset. -/
def word32? (b : Octets) (i : Nat) : Option UInt32 := do
  let high ← b.word16? i
  let low ← b.word16? (i + 2)
  return word32 high low

/-- The octets `i, …, i + n - 1`, if they are all there. -/
def slice? (b : Octets) (i n : Nat) : Option Octets :=
  if i + n ≤ b.length then some ((b.drop i).take n) else none

/-- The string with the octets from `i` on replaced by `new`, if it reaches
    that far. The length stays the same. -/
def overwrite? (b : Octets) (i : Nat) (new : Octets) : Option Octets :=
  if i + new.length ≤ b.length then
    some (b.take i ++ new ++ b.drop (i + new.length))
  else none

end Octets

/-- Octets to be put at an offset. -/
structure Patch where
  offset : Nat
  octets : Octets
  deriving DecidableEq, Repr

/-- What came of writing several fields: the string as it is afterwards, and
    whether every field was written. -/
structure Written where
  octets : Octets
  complete : Bool
  deriving DecidableEq, Repr

/-- Writes the patches in order and stops at the first that does not fit;
    what was written before it stays. -/
def Octets.applyPatches (b : Octets) : List Patch → Written
  | [] => ⟨b, true⟩
  | p :: rest =>
    match b.overwrite? p.offset p.octets with
    | some b' => applyPatches b' rest
    | none => ⟨b, false⟩

end ReceiveOffload
