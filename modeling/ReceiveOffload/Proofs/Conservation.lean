import ReceiveOffload.Proofs.Books

/-!
# Conservation of the Stream

A flow hands out the data that it was given, in order, and holds back what is
still pending. Nothing is lost but what was said to be, nothing comes twice, and
no other flow's data comes in. It makes no difference how the calls on the flows
are interleaved, which timers run out and when that is dealt with, and when
storage is full.

What is expected of a flow is the frames that its books keep: those that were
accepted, in the order in which they arrived, without the ones that were
reported lost. `Ledger.kept_enter` says call by call what that removes. A lost
segment never enters, and a lost aggregate takes all that waited and the segment
that it was lost over.

What is found is what was handed out, and behind it what the aggregate that is
pending has stored. The one thing that could go wrong with it is an identifier
that is given out while it is in use, and the width of the identifiers makes
that a matter of storing more frames than there are.

## Main definitions

* `Ledger.kept`: The frames that were accepted and not lost.
* `Engine.pendingPayload?`: The payload that is pending on a flow.

## Theorems

* `Ledger.kept_enter`: What a call removes.
* `stream_conserved`: What was handed out and what is pending is what was kept.
-/

namespace ReceiveOffload

/-- The frames that were accepted and not lost, in the order in which they
    arrived. -/
def Ledger.kept (l : Ledger) : List Frame :=
  l.settled ++ l.waiting

/-- A frame that is offered is kept, unless it was refused or is lost. A lost
    segment is not kept, and neither is what waited when an aggregate is lost. -/
theorem Ledger.kept_enter (l : Ledger) (frame : Frame) (said : Disposition) :
    (l.enter frame said).kept =
      if said.badFrame then l.kept
      else if said.aggregationDiscarded then l.settled
      else if said.segmentDiscarded then l.kept
      else l.kept ++ [frame] := by
  -- The order of the tests is that of `Ledger.enter`. Settling what waits makes no
  -- difference to what is kept.
  unfold enter kept
  by_cases hbad : said.badFrame = true
  · rw [if_pos hbad, if_pos hbad]
  rw [if_neg hbad, if_neg hbad]
  by_cases hlost : said.aggregationDiscarded = true
  · rw [if_pos hlost, if_pos hlost]
    exact List.append_nil l.settled
  rw [if_neg hlost, if_neg hlost]
  by_cases hdropped : said.segmentDiscarded = true
  · rw [if_pos hdropped, if_pos hdropped]
    exact List.append_nil _
  rw [if_neg hdropped, if_neg hdropped]
  by_cases hmerged : said.aggregated = true
  · rw [if_pos hmerged]
    exact (List.append_assoc _ _ _).symm
  rw [if_neg hmerged]
  by_cases hopened : said.newAggregationStarted = true
  · rw [if_pos hopened]
    rfl
  · rw [if_neg hopened]
    exact List.append_nil _

/-- The payload that is pending on a flow: what is stored for its aggregate,
    behind the headers. -/
def Engine.pendingPayload? (engine : Engine) (flow : UInt64) : Option Octets :=
  match engine.pending flow with
  | none => some []
  | some p => (engine.services.stored? p.frame).map fun frame =>
      frame.octets.drop p.headersLength.toNat

/-- What is pending is the payload of the segments that wait. -/
theorem Engine.pendingPayload?_eq (engine : Engine) (flow : UInt64) (members : List Segment)
    (h : engine.services.Holds (engine.pending flow) members) :
    engine.pendingPayload? flow = some (members.map Segment.payload).flatten := by
  unfold pendingPayload?
  rcases hp : engine.pending flow with _ | p
  · rw [hp] at h
    rw [show members = [] from h]
    rfl
  · rw [hp] at h
    rcases h with ⟨first, rest, stored, rfl, hstored, m⟩
    simp only [hstored, Option.map_some, m.shared_eq.2.1, m.drop_stored]

/-- The stream of every flow is conserved. What was handed out for it, and
    behind that what is pending, is the payload of the frames that were accepted
    and not reported lost, in the order in which they arrived; and what is
    pending is the payload of those of them that wait. -/
theorem stream_conserved (setup : Setup) (steps : List Step) (flow : UInt64)
    (hstores : (World.run setup steps).stores < 2 ^ 64) :
    ∃ sent pending,
      streamOf ((World.run setup steps).ledger flow).emitted = some sent ∧
      (World.run setup steps).engine.pendingPayload? flow = some pending ∧
      streamOf ((World.run setup steps).ledger flow).waiting = some pending ∧
      streamOf ((World.run setup steps).ledger flow).kept = some (sent ++ pending) := by
  have hbacked := World.backed_run setup steps hstores
  rcases hbacked.held flow with ⟨members, hholds, hwaiting⟩
  -- The books know what was settled and what waits, and the frame that is stored
  -- for the flow has the payload of what waits.
  rcases (hbacked.balanced flow).stream with ⟨sent, hemitted, hsettled⟩
  have hstream := streamOf_frames members hholds.genuine
  rw [← hwaiting] at hstream
  exact ⟨sent, _, hemitted, Engine.pendingPayload?_eq _ flow members hholds, hstream,
    streamOf_append _ _ _ _ hsettled hstream⟩

/-- Two flows take turns, one of them loses its aggregate, and the other begins
    another one. -/
def twoFlows : List Step := [
  .offer 7 (plainFrame 1 [1, 2]) plainPolicy {},
  .offer 8 (plainFrame 9 [70]) plainPolicy {},
  .offer 7 (plainFrame 3 [3, 4]) plainPolicy {},
  .refuse [] [0],
  .offer 8 (plainFrame 10 [71]) plainPolicy {},
  .offer 7 (plainFrame 9 [9]) plainPolicy {}
]

theorem stream_conserved_twoFlows :
    (World.run {} twoFlows).stores < 2 ^ 64 ∧
      ∃ sent pending,
        streamOf ((World.run {} twoFlows).ledger 7).emitted = some sent ∧
        (World.run {} twoFlows).engine.pendingPayload? 7 = some pending ∧
        streamOf ((World.run {} twoFlows).ledger 7).waiting = some pending ∧
        streamOf ((World.run {} twoFlows).ledger 7).kept = some (sent ++ pending) := by
  have hstores : (World.run {} twoFlows).stores < 2 ^ 64 := by decide +kernel
  exact ⟨hstores, stream_conserved {} twoFlows 7 hstores⟩

example : streamOf ((World.run {} twoFlows).ledger 7).kept = some [1, 2, 3, 4, 9] := by
  decide +kernel

end ReceiveOffload
