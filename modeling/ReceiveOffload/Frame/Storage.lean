import ReceiveOffload.Failure
import ReceiveOffload.Frame
import ReceiveOffload.Table

/-!
# Frame Storage

Pending aggregates are kept in a store that is bounded twice: in the number of
frames and in the number of their octets. A frame is stored under an
identifier, grows at its end, and is taken out again as a whole.

Identifiers count up and are never given out again, so one that outlives its
frame names nothing, and an operation on it changes nothing. An operation that
is refused changes nothing either: every check comes before the first change.

The octets in use are kept as a running total, so that a request is answered
without going through the frames.

## Main definitions

* `FrameId`: The identifier of a stored frame.
* `FrameStorage`: A bounded store of frames.
* `FrameStorage.store`: Stores a frame under a new identifier.
* `FrameStorage.extend`: Appends to a stored frame.
* `FrameStorage.take`: Removes a stored frame and hands it over.
* `FrameStorage.discard`: Removes a stored frame.
-/

namespace ReceiveOffload

/-- The identifier of a stored frame. -/
structure FrameId where
  number : UInt64
  deriving DecidableEq, Repr

/-- A store of frames, bounded in their number and in their octets. -/
structure FrameStorage where
  maxFrames : Nat := 4096
  octetBudget : Nat := 64 * 1024 * 1024
  stored : Table FrameId Frame := {}
  octetCount : Nat := 0
  next : FrameId := ⟨0⟩
  deriving DecidableEq, Repr

namespace FrameStorage

/-- The number of frames stored. -/
def frameCount (storage : FrameStorage) : Nat :=
  storage.stored.size

/-- The length of a stored frame. -/
def frameLength? (storage : FrameStorage) (id : FrameId) : Option Nat :=
  (storage.stored.get? id).map Frame.length

/-- Stores a frame under a new identifier. -/
def store (storage : FrameStorage) (frame : Frame) : Except Failure FrameId × FrameStorage :=
  if storage.maxFrames ≤ storage.frameCount
      ∨ storage.octetBudget < storage.octetCount + frame.length then
    (.error .buffersExhausted, storage)
  else
    (.ok storage.next,
      { storage with
        stored := storage.stored.insert storage.next frame
        octetCount := storage.octetCount + frame.length
        next := ⟨storage.next.number + 1⟩ })

/-- Appends `tail`, without its first `trim` octets, to the frame stored under
    `id`, and gives the length that it has then. -/
def extend (storage : FrameStorage) (id : FrameId) (tail : Frame) (trim : Nat) :
    Except Failure Nat × FrameStorage :=
  if tail.length < trim then (.error (.malformed .trimBeyondFrame), storage)
  else if storage.octetBudget < storage.octetCount + (tail.length - trim) then
    (.error .buffersExhausted, storage)
  else
    match storage.stored.get? id with
    | none => (.error (.malformed .unknownFrame), storage)
    | some frame =>
      let grown := frame.append (tail.octets.drop trim)
      (.ok grown.length,
        { storage with
          stored := storage.stored.insert id grown
          octetCount := storage.octetCount + (tail.length - trim) })

/-- Removes the frame stored under `id` and hands it over. -/
def take (storage : FrameStorage) (id : FrameId) : Option Frame × FrameStorage :=
  match storage.stored.get? id with
  | none => (none, storage)
  | some frame =>
    (some frame,
      { storage with
        stored := storage.stored.erase id
        octetCount := storage.octetCount - frame.length })

/-- Removes the frame stored under `id`. -/
def discard (storage : FrameStorage) (id : FrameId) : FrameStorage :=
  (storage.take id).2

end FrameStorage

end ReceiveOffload
