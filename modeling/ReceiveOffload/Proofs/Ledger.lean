import ReceiveOffload.Proofs.Emitted
import ReceiveOffload.Proofs.Run

/-!
# The Ledger of a Flow

What becomes of the frames that are offered to a flow can be followed from
outside. A call says what it did, and the saying is precise enough to keep books
by: a frame that was accepted is waiting until the aggregate that it is part of
is closed, and then it is settled, unless a loss was reported. The ledger is
these books. It is kept from the events of a flow alone and knows nothing of the
engine.

Against that stands what was handed out. The ledger is balanced when the frames
handed out carry the payload of the frames settled, and when each aggregate
represents the frames that were waiting when it was closed.

`Outcome` lists what a call can come to, with the segments waiting before it and
after it. It is the one thing that has to be known of the engine here. That the
books stay balanced is then a question of one case after another, in none of
which a frame is stored or a timer armed.

## Main definitions

* `Ledger`: The books of a flow.
* `Ledger.after`: The books after one more event.
* `streamOf`: The payload that a list of frames carries.
* `Closing`: An aggregate was made of the given segments.
* `Outcome`: What an offered segment comes to.
* `Ledger.Balanced`: What was handed out is what was settled.

## Theorems

* `Outcome.balanced`, `Ledger.balanced_closed`: The books stay balanced.
-/

namespace ReceiveOffload

/-- The payload that a list of frames carries, if all of them can be read. -/
def streamOf : List Frame → Option Octets
  | [] => some []
  | frame :: rest => do
    let payload ← frame.payload?
    let stream ← streamOf rest
    return payload ++ stream

/-- The payload of frames handed out one after another is put together in this order. -/
theorem streamOf_append (xs ys : List Frame) (a b : Octets) (ha : streamOf xs = some a)
    (hb : streamOf ys = some b) : streamOf (xs ++ ys) = some (a ++ b) := by
  induction xs generalizing a with
  | nil =>
      rw [streamOf, Option.some.injEq] at ha
      rw [List.nil_append, hb, ← ha, List.nil_append]
  | cons frame rest ih =>
      simp only [streamOf, Option.bind_eq_bind, Option.bind_eq_some_iff, Option.pure_def,
        Option.some.injEq] at ha
      rcases ha with ⟨payload, hpayload, stream, hstream, rfl⟩
      simp only [List.cons_append, streamOf, hpayload, ih stream hstream, Option.bind_eq_bind,
        Option.bind_some, Option.pure_def, List.append_assoc]

theorem streamOf_singleton (frame : Frame) (payload : Octets)
    (h : frame.payload? = some payload) : streamOf [frame] = some payload := by
  simp only [streamOf, h, Option.bind_eq_bind, Option.bind_some, Option.pure_def,
    List.append_nil]

/-- The books of a flow. -/
structure Ledger where
  /-- The frames that were accepted and not lost, but for those that wait. -/
  settled : List Frame := []
  /-- The frames that wait for their aggregate to be closed. -/
  waiting : List Frame := []
  /-- The frames that were handed out. -/
  emitted : List Frame := []
  /-- The aggregates that were handed out, with the frames they were made of. -/
  closed : List (Aggregate × List Frame) := []
  deriving DecidableEq, Repr

namespace Ledger

/-- What waits is settled. -/
def settle (l : Ledger) : Ledger :=
  { l with settled := l.settled ++ l.waiting, waiting := [] }

/-- What waits is lost. -/
def lose (l : Ledger) : Ledger :=
  { l with waiting := [] }

/-- The books after a frame was offered, by what is said to have become of it. A
    refused frame was never accepted. A lost aggregate takes the frame with it. -/
def enter (l : Ledger) (frame : Frame) (said : Disposition) : Ledger :=
  if said.badFrame then l
  else if said.aggregationDiscarded then l.lose
  else if said.segmentDiscarded then l.settle
  else if said.aggregated then { l with waiting := l.waiting ++ [frame] }
  else if said.newAggregationStarted then { l.settle with waiting := [frame] }
  else { l.settle with settled := l.settled ++ l.waiting ++ [frame] }

/-- The frames that a call made an aggregate of: those that waited, and the
    frame offered if the call says nothing of what became of it. -/
def closes (l : Ledger) (frame : Frame) (output : Output) : List Frame :=
  if output.segment.isNone ∧ ¬ output.disposition.segmentDiscarded
      ∧ ¬ output.disposition.newAggregationStarted then l.waiting ++ [frame]
  else l.waiting

/-- The books after frames were handed out, with the aggregate among them. -/
def handOut (l : Ledger) (frames : List Frame) (aggregate : Option Aggregate)
    (members : List Frame) : Ledger :=
  { l with
    emitted := l.emitted ++ frames
    closed := l.closed ++ aggregate.toList.map fun aggregate => (aggregate, members) }

/-- The books of a flow after one more event. -/
def after (flow : UInt64) (l : Ledger) : Event → Ledger
  | .offered flow' frame output =>
    if flow' = flow then
      (l.enter frame output.disposition).handOut output.frames output.aggregate
        (l.closes frame output)
    else l
  | .flushed flow' output =>
    if flow' = flow then
      (if output.disposition.flushAggregationDone then l.settle
        else if output.disposition.aggregationDiscarded then l.lose
        else l).handOut output.frames output.aggregate l.waiting
    else l
  | .ranOut _ => l
  | .delivered expiry aggregate =>
    if expiry.flow = flow ∧ aggregate.isSome then
      l.settle.handOut (aggregate.map Aggregate.frame).toList aggregate l.waiting
    else l

end Ledger

/-- The books of a flow in a world. -/
def World.ledger (world : World) (flow : UInt64) : Ledger :=
  world.history.foldl (Ledger.after flow) {}

/-- The ledger of a world is kept event by event. -/
theorem World.ledger_next (world : World) (engine : Engine) (events : List Event)
    (flow : UInt64) :
    (world.next engine events).ledger flow = events.foldl (Ledger.after flow) (world.ledger flow) :=
  List.foldl_append

theorem World.ledger_next_singleton (world : World) (engine : Engine) (event : Event)
    (flow : UInt64) :
    (world.next engine [event]).ledger flow = (world.ledger flow).after flow event :=
  world.ledger_next engine [event] flow

/-- An aggregate was made of the given segments. -/
def Closing (aggregate : Aggregate) (members : List Segment) : Prop :=
  ∃ first rest p stored, members = first :: rest ∧ Merged first p stored rest ∧
    Aggregate.ofStored stored p = .ok aggregate

/-- What was closed represents the segments that it was closed with. -/
theorem Closing.represents {aggregate : Aggregate} {members : List Segment}
    (h : Closing aggregate members) :
    ∃ first rest, members = first :: rest ∧ aggregate.Represents first rest := by
  rcases h with ⟨first, rest, p, stored, rfl, m, hsealed⟩
  rcases m.represents with ⟨aggregate', hsealed', _, hrepresents⟩
  rw [hsealed, Except.ok.injEq] at hsealed'
  exact ⟨first, rest, rfl, hsealed' ▸ hrepresents⟩

/-- How an aggregate of several segments came about: they were merged into a stored
    frame, and that was sealed. -/
theorem Closing.sealed {aggregate : Aggregate} {members : List Segment}
    (h : Closing aggregate members) (hseveral : 2 ≤ aggregate.segments) :
    ∃ first rest p stored b, members = first :: rest ∧ Merged first p stored rest ∧
      ¬ p.segments ≤ 1 ∧
      Aggregate.sealOctets (first.headersIn stored.octets) stored.octets p = .ok b ∧
      (first.headersIn stored.octets).Sealed stored p.trailer b ∧
      aggregate = p.sealedAs (first.headersIn stored.octets) stored b := by
  rcases h with ⟨first, rest, p, stored, rfl, m, hsealed⟩
  have hdecode := Headers.decode_of_readsFrom _ _ m.reads
  -- An aggregate of one segment is handed out as it was stored, which the count of segments
  -- excludes.
  by_cases halone : p.segments ≤ 1
  · rw [Aggregate.ofStored_alone stored p _ hdecode halone, Except.ok.injEq] at hsealed
    rw [← hsealed] at hseveral
    exact absurd (Nat.le_trans hseveral halone) (by decide)
  · rcases Headers.sealOctets_sealed m.reads p m.length_eq.2 with ⟨b, hseal, sealing⟩
    rw [Aggregate.ofStored_several stored p _ b hdecode halone hseal, Except.ok.injEq] at hsealed
    exact ⟨first, rest, p, stored, b, rfl, m, halone, hseal, sealing, hsealed.symm⟩

/-- A closed aggregate carries the payload of its members, in the order of their arrival. -/
theorem Closing.payload?_eq {aggregate : Aggregate} {members : List Segment}
    (h : Closing aggregate members) :
    aggregate.frame.payload? = some (members.map Segment.payload).flatten := by
  rcases h.represents with ⟨first, rest, rfl, hrepresents⟩
  exact hrepresents.payload?_eq

/-- The frames of segments carry their payloads. -/
theorem streamOf_frames (members : List Segment) (h : ∀ s ∈ members, s.Genuine) :
    streamOf (members.map Segment.frame) = some (members.map Segment.payload).flatten := by
  induction members with
  | nil => rfl
  | cons s members ih =>
      rcases List.forall_mem_cons.mp h with ⟨hs, hmembers⟩
      simp only [List.map_cons, streamOf, hs.payload?_eq, ih hmembers, Option.bind_eq_bind,
        Option.bind_some, Option.pure_def, List.flatten_cons]

/-- What an offered segment comes to: the segments that wait before it, what the
    call hands out, and the segments that wait after it. -/
inductive Outcome (segment : Segment) : List Segment → Output → List Segment → Prop
  /-- Nothing waited, and the segment is handed back. -/
  | passed (said : Disposition) (hsaid : said = { flushNow := true }
      ∨ said = { timerUnavailable := true }) :
      Outcome segment [] (.handBack said segment.frame) []
  /-- Nothing waited, and the segment opens an aggregate. -/
  | opened : Outcome segment [] { disposition := { newAggregationStarted := true } } [segment]
  /-- Nothing waited, and the segment is lost. -/
  | refused : Outcome segment [] { disposition := { segmentDiscarded := true } } []
  /-- The segment waits with the others. -/
  | merged (members : List Segment) :
      Outcome segment members { disposition := { aggregated := true } } (members ++ [segment])
  /-- All that waited is lost, and the segment with it. -/
  | lost (members : List Segment) :
      Outcome segment members { disposition := { aggregationDiscarded := true } } []
  /-- The segment closes the aggregate that it is part of. -/
  | mergedClosing (members : List Segment) (aggregate : Aggregate)
      (closing : Closing aggregate (members ++ [segment])) :
      Outcome segment members (.ofClosing (some aggregate) { flushNow := true }) []
  /-- The segment is handed back behind the aggregate. -/
  | closedPassing (members : List Segment) (aggregate : Aggregate) (said : Disposition)
      (closing : Closing aggregate members)
      (hsaid : said = {} ∨ said = { flushNow := true, timerUnavailable := true }) :
      Outcome segment members
        (((Output.ofClosing (some aggregate) { flushNow := true }).also said).withSegment
          segment.frame) []
  /-- The segment is lost behind the aggregate. -/
  | closedRefusing (members : List Segment) (aggregate : Aggregate)
      (closing : Closing aggregate members) :
      Outcome segment members
        ((Output.ofClosing (some aggregate) { flushNow := true }).also
          { segmentDiscarded := true }) []
  /-- The segment opens the next aggregate behind this one. -/
  | closedOpening (members : List Segment) (aggregate : Aggregate)
      (closing : Closing aggregate members) :
      Outcome segment members
        ((Output.ofClosing (some aggregate) { flushNow := true }).also
          { newAggregationStarted := true }) [segment]

namespace Ledger

/-- What was handed out carries what was settled, and every aggregate was made
    of the frames that the books have for it. -/
structure Balanced (l : Ledger) : Prop where
  stream : ∃ sent, streamOf l.emitted = some sent ∧ streamOf l.settled = some sent
  closed : ∀ entry ∈ l.closed, ∃ members : List Segment,
    entry.2 = members.map Segment.frame ∧ Closing entry.1 members

theorem balanced_empty : ({} : Ledger).Balanced where
  stream := ⟨[], rfl, rfl⟩
  closed := fun _ h => absurd h List.not_mem_nil

/-- Books stay balanced if the frames that are settled carry what the frames
    that are handed out carry. -/
theorem Balanced.extend {l : Ledger} (h : l.Balanced) (moved waiting handed : List Frame)
    (closed : List (Aggregate × List Frame)) (stream : Octets)
    (hmoved : streamOf moved = some stream) (hhanded : streamOf handed = some stream)
    (hclosed : ∀ entry ∈ closed, ∃ members : List Segment,
      entry.2 = members.map Segment.frame ∧ Closing entry.1 members) :
    Balanced ⟨l.settled ++ moved, waiting, l.emitted ++ handed, l.closed ++ closed⟩ := by
  rcases h.stream with ⟨sent, hemitted, hsettled⟩
  refine ⟨⟨sent ++ stream, streamOf_append _ _ _ _ hemitted hhanded,
    streamOf_append _ _ _ _ hsettled hmoved⟩, ?_⟩
  intro entry hentry
  rcases List.mem_append.mp hentry with hentry | hentry
  · exact h.closed entry hentry
  · exact hclosed entry hentry

/-- Books stay balanced when all that waits is handed out as an aggregate. -/
theorem balanced_closed {l : Ledger} (h : l.Balanced) (aggregate : Aggregate)
    (members : List Segment) (hmembers : ∀ s ∈ members, s.Genuine)
    (hwaiting : l.waiting = members.map Segment.frame) (closing : Closing aggregate members) :
    (l.settle.handOut [aggregate.frame] (some aggregate) l.waiting).Balanced := by
  have hstream := streamOf_frames members hmembers
  rw [← hwaiting] at hstream
  exact h.extend l.waiting [] [aggregate.frame] [(aggregate, l.waiting)] _ hstream
    (streamOf_singleton _ _ closing.payload?_eq)
    (List.forall_mem_singleton.mpr ⟨members, hwaiting, closing⟩)

end Ledger

namespace Outcome

open Ledger

variable {segment : Segment} {members members' : List Segment} {output : Output}

/-- Books stay balanced when a segment was offered, and what waits is what the
    outcome says. -/
theorem balanced (o : Outcome segment members output members') (genuine : segment.Genuine)
    (hmembers : ∀ s ∈ members, s.Genuine) (l : Ledger) (hl : l.Balanced)
    (hwaiting : l.waiting = members.map Segment.frame) :
    ((l.enter segment.frame output.disposition).handOut output.frames output.aggregate
        (l.closes segment.frame output)).Balanced ∧
      ((l.enter segment.frame output.disposition).handOut output.frames output.aggregate
        (l.closes segment.frame output)).waiting = members'.map Segment.frame := by
  have hstream := streamOf_frames members hmembers
  -- What was settled and what was handed out grow by the same payload, which is
  -- that of the segments that waited, of the offered one, or of both.
  have hown := streamOf_singleton segment.frame segment.payload genuine.payload?_eq
  have hboth := streamOf_append _ _ _ _ hstream hown
  have hnone : ∀ entry ∈ ([] : List (Aggregate × List Frame)), ∃ members : List Segment,
      entry.2 = members.map Segment.frame ∧ Closing entry.1 members :=
    fun _ h => absurd h List.not_mem_nil
  rw [← hwaiting] at hstream hboth
  rcases l with ⟨settled, waiting, emitted, closed⟩
  simp only at hwaiting hstream hboth
  cases o with
  | passed said hsaid =>
      rw [List.map_nil] at hwaiting
      subst hwaiting
      have hbooks := hl.extend [segment.frame] [] [segment.frame] [] segment.payload hown hown
        hnone
      rcases hsaid with rfl | rfl <;>
        exact ⟨by simpa [enter, settle, handOut, Output.handBack, Output.frames] using hbooks,
          by simp [enter, settle, handOut, Output.handBack]⟩
  | opened =>
      rw [List.map_nil] at hwaiting
      subst hwaiting
      have hbooks := hl.extend [] [segment.frame] [] [] [] rfl rfl hnone
      exact ⟨by simpa [enter, settle, handOut, Output.frames] using hbooks,
        by simp [enter, settle, handOut]⟩
  | refused =>
      rw [List.map_nil] at hwaiting
      subst hwaiting
      have hbooks := hl.extend [] [] [] [] [] rfl rfl hnone
      exact ⟨by simpa [enter, settle, handOut, Output.frames] using hbooks,
        by simp [enter, settle, handOut]⟩
  -- Nothing is settled as long as the segment waits.
  | merged =>
      have hbooks := hl.extend [] (waiting ++ [segment.frame]) [] [] [] rfl rfl hnone
      exact ⟨by simpa [enter, handOut, Output.frames] using hbooks,
        by simp [enter, handOut, hwaiting]⟩
  -- What waited leaves the books, and nothing is handed out for it.
  | lost =>
      have hbooks := hl.extend [] [] [] [] [] rfl rfl hnone
      exact ⟨by simpa [enter, lose, handOut, Output.frames] using hbooks,
        by simp [enter, lose, handOut]⟩
  | mergedClosing _ aggregate closing =>
      have hsealed := streamOf_singleton _ _ closing.payload?_eq
      rw [List.map_append, List.flatten_append, List.map_singleton, List.flatten_singleton]
        at hsealed
      have hbooks := hl.extend (waiting ++ [segment.frame]) [] [aggregate.frame]
        [(aggregate, waiting ++ [segment.frame])] _ hboth hsealed
        (List.forall_mem_singleton.mpr ⟨members ++ [segment], by simp [hwaiting], closing⟩)
      exact ⟨by simpa [enter, settle, closes, handOut, Output.ofClosing, Output.frames]
          using hbooks,
        by simp [enter, settle, handOut, Output.ofClosing]⟩
  | closedPassing _ aggregate said closing hsaid =>
      have hsealed := streamOf_singleton _ _ closing.payload?_eq
      have hbooks := hl.extend (waiting ++ [segment.frame]) [] [aggregate.frame, segment.frame]
        [(aggregate, waiting)] _ hboth (streamOf_append _ _ _ _ hsealed hown)
        (List.forall_mem_singleton.mpr ⟨members, hwaiting, closing⟩)
      rcases hsaid with rfl | rfl <;>
        exact ⟨by simpa [enter, settle, closes, handOut, Output.ofClosing, Output.also,
            Disposition.union, Output.withSegment, Output.frames] using hbooks,
          by simp [enter, settle, handOut, Output.ofClosing, Output.also, Disposition.union,
            Output.withSegment]⟩
  | closedRefusing _ aggregate closing =>
      have hsealed := streamOf_singleton _ _ closing.payload?_eq
      have hbooks := hl.extend waiting [] [aggregate.frame] [(aggregate, waiting)] _ hstream
        hsealed (List.forall_mem_singleton.mpr ⟨members, hwaiting, closing⟩)
      exact ⟨by simpa [enter, settle, closes, handOut, Output.ofClosing, Output.also,
          Disposition.union, Output.frames] using hbooks,
        by simp [enter, settle, handOut, Output.ofClosing, Output.also, Disposition.union]⟩
  | closedOpening _ aggregate closing =>
      have hsealed := streamOf_singleton _ _ closing.payload?_eq
      have hbooks := hl.extend waiting [segment.frame] [aggregate.frame] [(aggregate, waiting)] _
        hstream hsealed (List.forall_mem_singleton.mpr ⟨members, hwaiting, closing⟩)
      exact ⟨by simpa [enter, settle, closes, handOut, Output.ofClosing, Output.also,
          Disposition.union, Output.frames] using hbooks,
        by simp [enter, settle, handOut, Output.ofClosing, Output.also, Disposition.union]⟩

end Outcome

end ReceiveOffload
