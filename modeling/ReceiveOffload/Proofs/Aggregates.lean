import ReceiveOffload.Proofs.Books

/-!
# The Aggregates of a Run

Aggregates leave an engine in four ways: with the segment that fills them, with
a segment that does not continue them, on request, and when their timer runs
out. The books have every one of them, with the frames it was made of, and since
they are balanced, what is promised of an aggregate is promised of all.

That the books miss none is seen from the events alone. An entry is never taken
back, and an event that hands out an aggregate makes one.

## Main definitions

* `World.aggregates`: The aggregates that were handed out.

## Theorems

* `World.mem_closed`: Every one of them is in the books.
* `aggregate_represents`: Every one of them represents the segments that were
  merged.
-/

namespace ReceiveOffload

/-- The aggregate that an event hands out, with its flow. -/
def Event.aggregate? : Event → Option (UInt64 × Aggregate)
  | .offered flow _ output => output.aggregate.map fun aggregate => (flow, aggregate)
  | .flushed flow output => output.aggregate.map fun aggregate => (flow, aggregate)
  | .ranOut _ => none
  | .delivered expiry aggregate => aggregate.map fun aggregate => (expiry.flow, aggregate)

/-- The aggregates that were handed out, each with its flow. -/
def World.aggregates (world : World) : List (UInt64 × Aggregate) :=
  world.history.filterMap Event.aggregate?

/-- What is handed out comes behind what was handed out before. -/
theorem World.aggregates_next (world : World) (engine : Engine) (events : List Event) :
    (world.next engine events).aggregates
      = world.aggregates ++ events.filterMap Event.aggregate? :=
  List.filterMap_append

namespace Ledger

/-- An entry is never taken back. -/
theorem closed_subset_after (flow : UInt64) (l : Ledger) (event : Event) :
    l.closed ⊆ (l.after flow event).closed := by
  -- Entering a frame says what waits and what is settled, never what was closed.
  have henter : ∀ frame said, (l.enter frame said).closed = l.closed := by
    intro frame said
    unfold enter
    split_ifs <;> rfl
  intro entry hentry
  cases event with
  | offered flow' frame output =>
      simp only [after]
      split_ifs
      · exact List.mem_append_left _ (by rw [henter]; exact hentry)
      · exact hentry
  | flushed flow' output =>
      simp only [after]
      split_ifs
      · exact List.mem_append_left _ hentry
      · exact List.mem_append_left _ hentry
      · exact List.mem_append_left _ hentry
      · exact hentry
  | ranOut expiries => exact hentry
  | delivered expiry aggregate =>
      simp only [after]
      split_ifs
      · exact List.mem_append_left _ hentry
      · exact hentry

/-- An event that hands out an aggregate makes an entry. -/
theorem mem_closed_after (flow : UInt64) (l : Ledger) (event : Event) (aggregate : Aggregate)
    (h : event.aggregate? = some (flow, aggregate)) :
    ∃ frames, (aggregate, frames) ∈ (l.after flow event).closed := by
  cases event with
  | offered flow' frame output =>
      simp only [Event.aggregate?, Option.map_eq_some_iff, Prod.mk.injEq] at h
      rcases h with ⟨_, haggregate, rfl, rfl⟩
      refine ⟨l.closes frame output, ?_⟩
      simp [after, handOut, haggregate]
  | flushed flow' output =>
      simp only [Event.aggregate?, Option.map_eq_some_iff, Prod.mk.injEq] at h
      rcases h with ⟨_, haggregate, rfl, rfl⟩
      refine ⟨l.waiting, ?_⟩
      simp [after, handOut, haggregate]
  | ranOut expiries => cases h
  | delivered expiry handed =>
      simp only [Event.aggregate?, Option.map_eq_some_iff, Prod.mk.injEq] at h
      rcases h with ⟨_, rfl, rfl, rfl⟩
      refine ⟨l.waiting, ?_⟩
      simp [after, handOut]

theorem closed_subset_foldl (flow : UInt64) (events : List Event) (l : Ledger) :
    l.closed ⊆ (events.foldl (after flow) l).closed := by
  induction events generalizing l with
  | nil => exact List.Subset.refl l.closed
  | cons event events ih =>
      exact List.Subset.trans (l.closed_subset_after flow event) (ih (l.after flow event))

/-- Once it is made, an entry stays through all that follows. -/
theorem mem_closed_foldl (flow : UInt64) (aggregate : Aggregate) (events : List Event)
    (l : Ledger) (h : (flow, aggregate) ∈ events.filterMap Event.aggregate?) :
    ∃ frames, (aggregate, frames) ∈ (events.foldl (after flow) l).closed := by
  induction events generalizing l with
  | nil => exact absurd h List.not_mem_nil
  | cons event events ih =>
      rcases List.mem_filterMap.mp h with ⟨handing, hhanding, hout⟩
      rcases List.mem_cons.mp hhanding with rfl | hlater
      · rcases l.mem_closed_after flow handing aggregate hout with ⟨frames, hframes⟩
        exact ⟨frames, closed_subset_foldl flow events _ hframes⟩
      · exact ih _ (List.mem_filterMap.mpr ⟨handing, hlater, hout⟩)

end Ledger

/-- Every aggregate that was handed out is in the books of its flow. -/
theorem World.mem_closed (world : World) (flow : UInt64) (aggregate : Aggregate)
    (h : (flow, aggregate) ∈ world.aggregates) :
    ∃ frames, (aggregate, frames) ∈ (world.ledger flow).closed :=
  Ledger.mem_closed_foldl flow aggregate world.history {} h

/-- An aggregate that was handed out was made of segments that had waited. -/
theorem World.closing_of_mem (setup : Setup) (steps : List Step) (flow : UInt64)
    (aggregate : Aggregate) (hstores : (run setup steps).stores < 2 ^ 64)
    (hout : (flow, aggregate) ∈ (run setup steps).aggregates) :
    ∃ members : List Segment,
      (aggregate, members.map Segment.frame) ∈ ((run setup steps).ledger flow).closed ∧
      Closing aggregate members := by
  rcases mem_closed _ flow aggregate hout with ⟨frames, hentry⟩
  rcases ((backed_run setup steps hstores).balanced flow).closed _ hentry with
    ⟨members, hframes, hclosing⟩
  exact ⟨members, hframes ▸ hentry, hclosing⟩

/-- Every aggregate that is handed out represents the segments that were merged:
    alone, it is the frame that arrived, and with others, its frame stands for
    all of them. -/
theorem aggregate_represents (setup : Setup) (steps : List Step) (flow : UInt64)
    (aggregate : Aggregate) (hstores : (World.run setup steps).stores < 2 ^ 64)
    (hout : (flow, aggregate) ∈ (World.run setup steps).aggregates) :
    ∃ first rest,
      (aggregate, (first :: rest).map Segment.frame)
        ∈ ((World.run setup steps).ledger flow).closed ∧
      aggregate.Represents first rest := by
  rcases World.closing_of_mem setup steps flow aggregate hstores hout with
    ⟨members, hentry, hclosing⟩
  rcases hclosing.represents with ⟨first, rest, rfl, hrepresents⟩
  exact ⟨first, rest, hentry, hrepresents⟩

/-- Two segments that follow each other, closed on request. -/
def pairFlushed : List Step := [
  .offer 7 (plainFrame 1 [1, 2, 3]) plainPolicy {},
  .offer 7 (plainFrame 4 [4, 5]) plainPolicy {},
  .flush 7
]

/-- What comes of that. -/
def pairAggregate : Aggregate where
  frame := { octets := [0x45, 0, 0, 45, 0, 1, 0x40, 0, 64, 6, 255, 253, 10, 0, 0, 1, 10, 0, 0, 2,
    0x1F, 0x90, 0x23, 0x28, 0, 0, 0, 1, 0, 0, 0, 1, 0x50, 0x10, 0x10, 0, 0x14, 0x22, 0, 0,
    1, 2, 3, 4, 5] }
  segments := 2
  segmentSize := 3
  headersLength := 40
  transport := 20
  version := .v4
  checksumComplete := false

theorem aggregate_represents_pair :
    (World.run {} pairFlushed).stores < 2 ^ 64 ∧
      (7, pairAggregate) ∈ (World.run {} pairFlushed).aggregates ∧
      ∃ first rest,
        (pairAggregate, (first :: rest).map Segment.frame)
          ∈ ((World.run {} pairFlushed).ledger 7).closed ∧
        pairAggregate.Represents first rest := by
  have hstores : (World.run {} pairFlushed).stores < 2 ^ 64 := by decide +kernel
  have hout : (7, pairAggregate) ∈ (World.run {} pairFlushed).aggregates := by decide +kernel
  exact ⟨hstores, hout, aggregate_represents {} pairFlushed 7 pairAggregate hstores hout⟩

end ReceiveOffload
