import ReceiveOffload.Octets

/-!
# TCP Options

The options of a TCP header are a sequence of single octets and of runs that
carry their own length. The end marker stops the sequence, a no-operation is
one octet, and every other option has a length octet that counts the whole
option. A sequence whose lengths do not add up is read as far as it makes
sense: what was found before the fault would have been returned already, and
nothing after it is looked at.

Only the timestamp matters here. Its echo reply changes from segment to
segment without the connection changing, so options are compared with the echo
reply masked. The mask covers only an option that the walk found; the same
octets inside another option stay as they are.

## Main definitions

* `TimestampOption`: A timestamp found among options.
* `TcpOptions.timestamp?`: The first timestamp among options.
* `TcpOptions.masked`: Options with the echo reply of the timestamp zeroed.
-/

namespace ReceiveOffload

/-- A timestamp found among options: where its value starts, its value and its
    echo reply. -/
structure TimestampOption where
  position : Nat
  value : UInt32
  echo : UInt32
  deriving DecidableEq, Repr

namespace TcpOptions

/-- The kind that ends the options. -/
def endOfOptions : UInt8 := 0

/-- The kind that stands alone and does nothing. -/
def noOperation : UInt8 := 1

/-- The kind of a timestamp. -/
def timestampKind : UInt8 := 8

/-- The length of a timestamp: kind, length, value and echo reply. -/
def timestampLength : Nat := 10

/-- The first timestamp among options that start at `position`. -/
def timestampFrom (position : Nat) (options : Octets) : Option TimestampOption :=
  match options with
  | [] => none
  | kind :: rest =>
    if kind = endOfOptions then none
    else if kind = noOperation then timestampFrom (position + 1) rest
    else
      match rest.head? with
      | none => none
      | some length =>
        if length.toNat < 2 ∨ rest.length + 1 < length.toNat then none
        else if kind = timestampKind ∧ length.toNat = timestampLength then do
          let value ← Octets.word32? rest 1
          let echo ← Octets.word32? rest 5
          return ⟨position + 2, value, echo⟩
        else timestampFrom (position + length.toNat) (rest.drop (length.toNat - 1))
termination_by options.length
decreasing_by
  · simp only [List.length_cons, Nat.lt_add_one]
  · simp only [List.length_drop, List.length_cons]
    omega

/-- The first timestamp among options. -/
def timestamp? (options : Octets) : Option TimestampOption :=
  timestampFrom 0 options

/-- The options with the four octets of the timestamp's echo reply zeroed. -/
def masked (options : Octets) : Octets :=
  match timestamp? options with
  | none => options
  | some found =>
    options.take (found.position + 4) ++ [0, 0, 0, 0] ++ options.drop (found.position + 8)

end TcpOptions

end ReceiveOffload
