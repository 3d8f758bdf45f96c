import ReceiveOffload.Frame.Depot
import ReceiveOffload.Telemetry.Counters
import ReceiveOffload.Telemetry.Metadata
import ReceiveOffload.Telemetry.Notice
import ReceiveOffload.Timer.Clock

/-!
# The Services of the Engine

The flows of an engine share what they run on: storage for the frames of
pending aggregates, timers, counters, metadata and a place for notices. Every
part of the engine takes the services as they are and gives them back as it
leaves them.

## Main definitions

* `Services`: What the flows of an engine share.
* `Services.storeFrame`, `Services.extendFrame`, `Services.takeFrame`,
  `Services.discardFrame`: Storage.
* `Services.armTimer`, `Services.restartTimer`, `Services.releaseTimer`,
  `Services.acknowledgeTimer`: Timers.
* `Services.count`, `Services.note`: Counters and notices.
-/

namespace ReceiveOffload

/-- What the flows of an engine share. -/
structure Services where
  frames : FrameDepot := {}
  timers : Timers := Timers.standard
  counters : Counters := {}
  metadata : Metadata := {}
  /-- What was noticed and has not been told yet, oldest first. -/
  notices : List Notice := []
  deriving DecidableEq, Repr

namespace Services

/-- Takes note of what happened. -/
def note (s : Services) (notice : Notice) : Services :=
  { s with notices := s.notices ++ [notice] }

/-- Raises a counter of the flow whose counters start at `base`. -/
def count (s : Services) (base : UInt64) (statistic : Statistic) (amount : Nat) : Services :=
  { s with counters := s.counters.raise (statistic.address base) (UInt64.ofNat amount) }

/-- Stores a frame. -/
def storeFrame (s : Services) (frame : Frame) : Except Failure FrameId × Services :=
  let (result, frames) := s.frames.store frame
  (result, { s with frames })

/-- Appends to a stored frame. -/
def extendFrame (s : Services) (id : FrameId) (tail : Frame) (trim : Nat) :
    Except Failure Nat × Services :=
  let (result, frames) := s.frames.extend id tail trim
  (result, { s with frames })

/-- Takes a frame out of storage. -/
def takeFrame (s : Services) (id : FrameId) : Option Frame × Services :=
  let (result, frames) := s.frames.take id
  (result, { s with frames })

/-- Drops a stored frame. -/
def discardFrame (s : Services) (id : FrameId) : Services :=
  { s with frames := s.frames.discard id }

/-- Arms a timer. -/
def armTimer (s : Services) (setup : TimerSetup) : Except Failure TimerId × Services :=
  let (result, timers) := s.timers.arm setup
  (result, { s with timers })

/-- Starts a timer over. -/
def restartTimer (s : Services) (handle : TimerId) : Except Failure Unit × Services :=
  let (result, timers) := s.timers.restart handle
  (result, { s with timers })

/-- Cancels or releases a timer. -/
def releaseTimer (s : Services) (handle : TimerId) : Services :=
  { s with timers := s.timers.release handle }

/-- Releases a timer that has fired. -/
def acknowledgeTimer (s : Services) (handle : TimerId) : Services :=
  { s with timers := s.timers.acknowledge handle }

end Services

end ReceiveOffload
