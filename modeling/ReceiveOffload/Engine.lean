import ReceiveOffload.Engine.Merge
import ReceiveOffload.Flow.Store

/-!
# The Engine

Consecutive TCP segments of one flow are merged into a single larger frame.
Three things drive a flow: a segment that arrives, a request to close what is
pending, and a timer that ran out. Each takes hold of the record of the flow,
decides, and lets go of the record with the next state of the flow in it.

Running out of resources is never an error of a call. It is part of what the
call says became of the segment and of the aggregate.

An expiry counts only if it is for the timer that the pending aggregate of the
flow owns. Any other is late: the aggregate that it was for is closed already,
and the one that is pending has a timer of its own. A late expiry leaves the
flow alone and only gives its slot back.

## Main definitions

* `Engine`: The flows and the services that they share.
* `Engine.offer`: A segment arrives.
* `Engine.flush`: What is pending is to be closed.
* `Engine.timeOut`: Closes the aggregate whose timer ran out.
* `Engine.expire`: A timer ran out.
* `Engine.deliver`, `Engine.deliverAll`: Timers ran out, and whoever waits for
  the aggregates is told.
-/

namespace ReceiveOffload

/-- The flows of an engine and the services that they share. -/
structure Engine where
  flows : FlowStore := .ofShards FlowStore.standardShards
  services : Services := {}
  deriving DecidableEq, Repr

namespace Engine

/-- The aggregate that is pending on a flow. -/
def pending (engine : Engine) (flow : UInt64) : Option Pending :=
  engine.flows.snapshot flow

/-- Takes note of what happened. -/
def note (engine : Engine) (notice : Notice) : Engine :=
  { engine with services := engine.services.note notice }

/-- Offers an arriving segment to a flow. A damaged frame, or one that carries
    no segment, is handed back and the flow is left alone. -/
def offer (engine : Engine) (flow : UInt64) (frame : Frame) (policy : Policy)
    (extras : Extras) : Output × Engine :=
  if frame.damaged then (.handBack { badFrame := true } frame, engine)
  else
    match Segment.ofFrame frame with
    | .error cause =>
      (.handBack { badFrame := true } frame, engine.note (.frameRejected flow cause))
    | .ok segment =>
      let (guard, flows) := engine.flows.lock flow
      let turn :=
        match guard.working with
        | none => engine.services.onIdle flow segment policy extras
        | some p => engine.services.onPending flow p segment policy extras
      (turn.output, ⟨flows.commit { guard with working := turn.flow }, turn.services⟩)

/-- Closes what is pending on a flow, if anything. -/
def flush (engine : Engine) (flow : UInt64) : Output × Engine :=
  let (guard, flows) := engine.flows.lock flow
  match guard.working with
  | none =>
    ({ disposition := { noAggregation := true } }, { engine with flows := flows.abort guard })
  | some p =>
    let s := engine.services.releaseTimer p.timer
    let s := if p.extendedStatistics then s.count p.statistics .flushRequests 1 else s
    let (aggregate, s) := (s.note (.explicitFlush flow p.segments)).closeAggregate p
    (.ofClosing aggregate { flushAggregationDone := true },
      ⟨flows.commit { guard with working := none }, s⟩)

/-- Closes the aggregate whose timer ran out, unless the expiry is late; gives
    the aggregate. -/
def timeOut (engine : Engine) (expiry : Expiry) : Option Aggregate × Engine :=
  let (guard, flows) := engine.flows.lock expiry.flow
  let late : Option Aggregate × Engine :=
    let s := engine.services.acknowledgeTimer expiry.handle
    (none, ⟨flows.abort guard, s.note (.staleTimer expiry.flow expiry.handle)⟩)
  match guard.working with
  | none => late
  | some p =>
    if p.timer ≠ expiry.handle then late
    else
      let s := engine.services.count p.statistics .timeoutFlushes 1
      let (aggregate, s) := (s.note (.timeoutFlush expiry.flow p.segments)).closeAggregate p
      let flows := flows.commit { guard with working := none }
      (aggregate, ⟨flows, s.acknowledgeTimer expiry.handle⟩)

/-- Deals with a timer that ran out. The aggregate that it closed is for the
    receiver of its completion. -/
def expire (engine : Engine) (expiry : Expiry) : Option Delivery × Engine :=
  let (aggregate, engine) := engine.timeOut expiry
  match aggregate, expiry.completion with
  | some aggregate, some completion =>
    (some { flow := expiry.flow, aggregate, completion }, engine)
  | some aggregate, none =>
    (none, engine.note (.nobodyToTell expiry.flow aggregate.length))
  | none, _ => (none, engine)

section Deliver

variable {σ : Type} (receive : Delivery → σ × Engine → σ × Engine)

/-- Deals with a timer that ran out and tells the receiver, who may call the
    engine again and keep something of their own. -/
def deliver (state : σ × Engine) (expiry : Expiry) : σ × Engine :=
  match state.2.expire expiry with
  | (none, engine) => (state.1, engine)
  | (some delivery, engine) => receive delivery (state.1, engine)

/-- Deals with timers that ran out, one after the other. -/
def deliverAll (state : σ × Engine) (expiries : List Expiry) : σ × Engine :=
  expiries.foldl (deliver receive) state

end Deliver

end Engine

end ReceiveOffload
