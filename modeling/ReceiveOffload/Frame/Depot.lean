import ReceiveOffload.Frame.Storage

/-!
# Frame Storage with Outages

Storage can be refused for reasons that it does not show itself: memory that
another user took, a device that does not answer. A depot is a store together
with the outages that lie ahead of it. For each of the three operations that
an outage can hit, they are the gaps between refusals: how many calls go
through before the next call is refused. An empty list is a service that never
fails again, so a depot without outages is its store.

A refused call does not reach the store. Discarding is never refused.

## Main definitions

* `Outages`: The refusals that lie ahead, per operation.
* `FrameDepot`: A store and its outages.
* `FrameDepot.store`, `FrameDepot.extend`, `FrameDepot.take`,
  `FrameDepot.discard`: The operations of the store. The first three may be
  refused.
-/

namespace ReceiveOffload

/-- How many calls go through before each refusal that lies ahead. -/
abbrev Gaps := List Nat

/-- Whether the next call is refused, and what lies ahead after it. -/
def Gaps.call : Gaps → Bool × Gaps
  | [] => (false, [])
  | 0 :: rest => (true, rest)
  | (gap + 1) :: rest => (false, gap :: rest)

/-- The refusals that lie ahead of the operations of a depot. -/
structure Outages where
  store : Gaps := []
  extend : Gaps := []
  take : Gaps := []
  deriving DecidableEq, Repr

/-- A store of frames and the outages that lie ahead of it. -/
structure FrameDepot where
  storage : FrameStorage := {}
  outages : Outages := {}
  deriving DecidableEq, Repr

namespace FrameDepot

/-- Stores a frame under a new identifier. -/
def store (depot : FrameDepot) (frame : Frame) : Except Failure FrameId × FrameDepot :=
  let (refused, ahead) := depot.outages.store.call
  let depot := { depot with outages := { depot.outages with store := ahead } }
  if refused then (.error .buffersExhausted, depot)
  else
    let (result, storage) := depot.storage.store frame
    (result, { depot with storage })

/-- Appends `tail`, without its first `trim` octets, to the frame stored under
    `id`, and gives the length that it has then. -/
def extend (depot : FrameDepot) (id : FrameId) (tail : Frame) (trim : Nat) :
    Except Failure Nat × FrameDepot :=
  let (refused, ahead) := depot.outages.extend.call
  let depot := { depot with outages := { depot.outages with extend := ahead } }
  if refused then (.error .buffersExhausted, depot)
  else
    let (result, storage) := depot.storage.extend id tail trim
    (result, { depot with storage })

/-- Removes the frame stored under `id` and hands it over. -/
def take (depot : FrameDepot) (id : FrameId) : Option Frame × FrameDepot :=
  let (refused, ahead) := depot.outages.take.call
  let depot := { depot with outages := { depot.outages with take := ahead } }
  if refused then (none, depot)
  else
    let (result, storage) := depot.storage.take id
    (result, { depot with storage })

/-- Removes the frame stored under `id`. -/
def discard (depot : FrameDepot) (id : FrameId) : FrameDepot :=
  { depot with storage := depot.storage.discard id }

end FrameDepot

end ReceiveOffload
