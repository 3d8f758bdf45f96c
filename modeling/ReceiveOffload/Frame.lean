import ReceiveOffload.Octets

/-!
# Frames

A frame as the receive path hands it over: its octets, whether they begin with
an Ethernet or with an IP header, and whether the path found it damaged. A
damaged frame is never looked into.

## Main definitions

* `Link`: Which header the octets begin with.
* `Frame`: A received frame.
-/

namespace ReceiveOffload

/-- Which header a frame begins with. -/
inductive Link where
  /-- The IP header. -/
  | rawIp
  /-- An Ethernet header, which may carry tags. -/
  | ethernet
  deriving DecidableEq, Repr, Inhabited

/-- A frame as the receive path hands it over. -/
structure Frame where
  octets : Octets
  link : Link := .rawIp
  damaged : Bool := false
  deriving DecidableEq, Repr, Inhabited

namespace Frame

/-- The number of octets. -/
def length (frame : Frame) : Nat :=
  frame.octets.length

/-- Whether the frame holds no octets. -/
def isEmpty (frame : Frame) : Bool :=
  frame.octets.isEmpty

/-- The frame with octets added at the end. -/
def append (frame : Frame) (octets : Octets) : Frame :=
  { frame with octets := frame.octets ++ octets }

end Frame

end ReceiveOffload
