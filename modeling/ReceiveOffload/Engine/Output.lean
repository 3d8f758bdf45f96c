import ReceiveOffload.Aggregate.Seal
import ReceiveOffload.Engine.Disposition

/-!
# Outputs

What a call hands out: its disposition, the aggregate that it closed, and the
arriving segment where it was not merged. The aggregate holds the older data
and goes first. A segment that was refused is handed back for the caller to
drop, and is not handed on.

## Main definitions

* `Output`: What a call hands out.
* `Output.frames`: The frames to hand on, in order.
* `Output.ofClosing`: What closing an aggregate hands out.
* `Delivery`: What the receiver of a completion is told.
-/

namespace ReceiveOffload

/-- What a call hands out. -/
structure Output where
  disposition : Disposition
  aggregate : Option Aggregate := none
  segment : Option Frame := none
  deriving DecidableEq, Repr

namespace Output

/-- The frames to hand on, in order. -/
def frames (output : Output) : List Frame :=
  (output.aggregate.map Aggregate.frame).toList
    ++ if output.disposition.badFrame then [] else output.segment.toList

/-- A segment that is handed back. -/
def handBack (disposition : Disposition) (segment : Frame) : Output where
  disposition
  segment := some segment

/-- What closing an aggregate hands out; nothing if the aggregate was lost on
    the way. -/
def ofClosing (aggregate : Option Aggregate) (disposition : Disposition) : Output where
  disposition := if aggregate.isSome then disposition else { aggregationDiscarded := true }
  aggregate

/-- The output with something added to what is said about the call. -/
def also (output : Output) (disposition : Disposition) : Output :=
  { output with disposition := output.disposition.union disposition }

/-- The output with the arriving segment handed back. -/
def withSegment (output : Output) (segment : Frame) : Output :=
  { output with segment := some segment }

end Output

/-- What the receiver of a completion is told: the flow, its aggregate, and
    the word that was left with the completion. -/
structure Delivery where
  flow : UInt64
  aggregate : Aggregate
  completion : Completion
  deriving DecidableEq, Repr

end ReceiveOffload
