import ReceiveOffload.Proofs.Calls
import ReceiveOffload.Proofs.Run

/-!
# Trials of the Engine

A run leaves an engine alone with its storage and its timers. A trial does not.
Between any two steps, storage may be told to refuse its next calls, frames that
are taken out among them, and the timers may be taken away and replaced by any
others: all in use, none registered, or with slots that somebody else has armed.
What is promised under trial is promised of an engine whose surroundings do what
they like, as long as a frame that storage gives back is the frame that it was
given.

What an aggregate is made of can be told from outside. The first segment of one
is the segment that arrived when it appeared, and the others are those that
arrived while it stayed; that it is the same aggregate is seen by its frame,
since every aggregate has a new one. A roster is that account for every flow. It
is kept by looking at what is pending before and after each step, and by nothing
that a call says of itself.

## Main definitions

* `Trial`: What can happen to an engine under trial.
* `World.endure`: What a trial comes to.
* `Roster`: A world, and for each flow the segments of its aggregate.
* `Roster.run`: What a list of trials comes to.

## Theorems

* `Roster.run_induction`: What holds at the start and is kept by every trial
  holds of every run.
-/

namespace ReceiveOffload

/-- What can happen to an engine under trial. -/
inductive Trial where
  /-- A step of the engine. -/
  | step (step : Step)
  /-- Storage is going to refuse calls of any kind. -/
  | refuse (outages : Outages)
  /-- The timers are replaced. -/
  | retime (timers : Timers)
  deriving DecidableEq, Repr

/-- The segment that arrives for a flow in a trial. -/
def Trial.arrival? (flow : UInt64) : Trial → Option Segment
  | .step (.offer flow' frame _ _) => if flow' = flow then frame.segment? else none
  | _ => none

/-- What a trial comes to. -/
def World.endure (world : World) : Trial → World
  | .step step => world.step step
  | .refuse outages =>
    let services := world.engine.services
    let frames := { services.frames with outages }
    world.next { world.engine with services := { services with frames } } []
  | .retime timers =>
    world.next { world.engine with services := { world.engine.services with timers } } []

theorem World.stores_le_endure (world : World) (trial : Trial) :
    world.stores ≤ (world.endure trial).stores := by
  rcases trial with step | outages | timers
  · exact world.stores_le_step step
  · exact Nat.le_add_right _ _
  · exact Nat.le_add_right _ _

/-- Every trial but the delivery of an unknown expiry leaves a next world. -/
theorem World.endure_eq_next (world : World) (trial : Trial) :
    world.endure trial = world ∨
      ∃ engine events, world.endure trial = world.next engine events := by
  rcases trial with step | outages | timers
  · exact world.step_eq_next step
  · exact Or.inr ⟨_, _, rfl⟩
  · exact Or.inr ⟨_, _, rfl⟩

/-- The segments of the aggregate that is pending after a segment arrived: they
    became more if it is still the same aggregate, and otherwise it was opened by
    the segment. -/
def membersAfter (before after : Option Pending) (arrival : Option Segment)
    (members : List Segment) : List Segment :=
  match after with
  | none => []
  | some p =>
    match arrival with
    | none => members
    | some segment =>
      if before.map Pending.frame = some p.frame then members ++ [segment] else [segment]

/-- A world, and for each flow the segments of its aggregate, oldest first. -/
structure Roster where
  world : World
  members : UInt64 → List Segment := fun _ => []

namespace Roster

/-- What a trial comes to. -/
def endure (roster : Roster) (trial : Trial) : Roster where
  world := roster.world.endure trial
  members flow := membersAfter (roster.world.engine.pending flow)
    ((roster.world.endure trial).engine.pending flow) (trial.arrival? flow)
    (roster.members flow)

/-- What a list of trials comes to. -/
def run (setup : Setup) (trials : List Trial) : Roster :=
  trials.foldl endure { world := .start setup }

/-- What holds at the start and is kept by every trial holds of every run. -/
theorem run_induction (setup : Setup) (trials : List Trial) (P : Roster → Prop)
    (hstart : P { world := .start setup }) (hendure : ∀ r trial, P r → P (r.endure trial)) :
    P (run setup trials) := by
  suffices h : ∀ r, P r → P (trials.foldl endure r) from h _ hstart
  induction trials with
  | nil => exact fun _ hr => hr
  | cons trial trials ih => exact fun r hr => ih (r.endure trial) (hendure r trial hr)

end Roster

/-- Without refusals and interference a run under trial is a run. -/
theorem Roster.world_run (setup : Setup) (steps : List Step) :
    (run setup (steps.map .step)).world = .run setup steps := by
  suffices h : ∀ r : Roster, ((steps.map Trial.step).foldl endure r).world
      = steps.foldl World.step r.world from h _
  induction steps with
  | nil => exact fun _ => rfl
  | cons s steps ih => exact fun r => ih (r.endure (.step s))

end ReceiveOffload
