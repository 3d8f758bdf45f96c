import ReceiveOffload.Engine
import ReceiveOffload.Proofs.Timers

/-!
# Runs of the Engine

Everything that can happen to an engine, in any order. Segments are offered to
any flow under any policy, aggregates are flushed, the clock moves, and the
expiries that moving it handed out are delivered: at once, late, more than once
or never. In between, storage may be told to refuse its next calls. Taking a
frame out is the one call that it never refuses; it fails only for an identifier
under which nothing is stored.

The pools of timers are registered at the start, and from then on storage and
timers are touched through the engine and the clock alone. That is what a world
is: an engine that was started so, and what was seen of it. The history is the
view from outside. It has what was offered and what came of it, and nothing of
what the engine kept to itself, so a promise about a history is one that a
caller could check.

Two numbers are counted along the way, since the widths of the identifiers
bound them. A world knows how many frames were ever stored and how often each
timer slot was released. A step does either only a few times, so the difference
of the identifiers before and after it is exact.

## Main definitions

* `Setup`: What an engine is started with.
* `Step`: What can happen.
* `Event`: What is seen of it.
* `World`: An engine and its history.
* `World.run`: What a list of steps comes to.
* `plainFrame`, `plainPolicy`: For runs on fixed inputs.

## Theorems

* `World.run_induction`: What holds at the start and is kept by every step holds
  of every run.
* `World.nextFrame_next`: The frames that are counted are those that the
  identifiers say.
-/

namespace ReceiveOffload

/-- What an engine is started with: its shards, the bounds of its storage, the
    identifiers and capacities of its timer pools, and the counters and the
    metadata that are there already. -/
structure Setup where
  shards : Nat := FlowStore.standardShards
  maxFrames : Nat := 4096
  octetBudget : Nat := 64 * 1024 * 1024
  pools : List (Nat × Nat) := [(0, standardTimerSlots)]
  counters : Counters := {}
  metadata : Metadata := {}
  deriving DecidableEq, Repr

/-- The engine that is started. -/
def Setup.engine (setup : Setup) : Engine where
  flows := .ofShards setup.shards
  services := {
    frames := { storage := { maxFrames := setup.maxFrames, octetBudget := setup.octetBudget } }
    timers := .ofPools setup.pools
    counters := setup.counters
    metadata := setup.metadata
  }

/-- What can happen to an engine. -/
inductive Step where
  /-- A segment arrives for a flow. -/
  | offer (flow : UInt64) (frame : Frame) (policy : Policy) (extras : Extras)
  /-- What is pending on a flow is to be closed. -/
  | flush (flow : UInt64)
  /-- The clock moves. -/
  | advance (elapsed : Nat)
  /-- One of the expiries that were handed out so far is delivered. -/
  | deliver (index : Nat)
  /-- Storage is going to refuse frames and appends after these many calls. -/
  | refuse (store extend : Gaps)
  deriving DecidableEq, Repr

/-- What is seen of a step. -/
inductive Event where
  | offered (flow : UInt64) (frame : Frame) (output : Output)
  | flushed (flow : UInt64) (output : Output)
  | ranOut (expiries : List Expiry)
  | delivered (expiry : Expiry) (aggregate : Option Aggregate)
  deriving DecidableEq, Repr

/-- The expiries that an event hands out. -/
def Event.expiries : Event → List Expiry
  | .ranOut expiries => expiries
  | _ => []

/-- The expiry that an event delivers. -/
def Event.delivery? : Event → Option Expiry
  | .delivered expiry _ => some expiry
  | _ => none

/-- An engine and what was seen of it, oldest first, with how many frames were
    stored and how often the timer slots were released. -/
structure World where
  engine : Engine
  history : List Event := []
  stores : Nat := 0
  releases : (pool slot : Nat) → Nat := fun _ _ => 0

namespace World

/-- The identifier that the next stored frame gets. -/
def nextFrame (world : World) : UInt64 :=
  world.engine.services.frames.storage.next.number

/-- How often a timer slot was released, as far as its generation can say. -/
def generation (world : World) (pool slot : Nat) : UInt32 :=
  world.engine.services.timers.generation pool slot

/-- The expiries that were handed out. -/
def expiries (world : World) : List Expiry :=
  world.history.flatMap Event.expiries

/-- The expiries that were delivered. -/
def deliveries (world : World) : List Expiry :=
  world.history.filterMap Event.delivery?

/-- The world with the engine that a step left and what was seen of it. -/
def next (world : World) (engine : Engine) (events : List Event) : World where
  engine
  history := world.history ++ events
  stores := world.stores
    + (engine.services.frames.storage.next.number - world.nextFrame).toNat
  releases pool slot := world.releases pool slot
    + (engine.services.timers.generation pool slot - world.generation pool slot).toNat

/-- What a step comes to. An expiry that was not handed out cannot be
    delivered. -/
def step (world : World) : Step → World
  | .offer flow frame policy extras =>
    let (output, engine) := world.engine.offer flow frame policy extras
    world.next engine [.offered flow frame output]
  | .flush flow =>
    let (output, engine) := world.engine.flush flow
    world.next engine [.flushed flow output]
  | .advance elapsed =>
    let (expiries, timers) := world.engine.services.timers.advance elapsed
    world.next { world.engine with services := { world.engine.services with timers } }
      [.ranOut expiries]
  | .deliver index =>
    match world.expiries[index]? with
    | none => world
    | some expiry =>
      world.next (world.engine.expire expiry).2
        [.delivered expiry (world.engine.timeOut expiry).1]
  | .refuse store extend =>
    let services := world.engine.services
    let frames := { services.frames with outages := { store, extend } }
    world.next { world.engine with services := { services with frames } } []

/-- The world in which nothing has happened. -/
def start (setup : Setup) : World where
  engine := setup.engine

/-- What a list of steps comes to. -/
def run (setup : Setup) (steps : List Step) : World :=
  steps.foldl step (start setup)

theorem run_concat (setup : Setup) (steps : List Step) (s : Step) :
    run setup (steps ++ [s]) = (run setup steps).step s := by
  simp only [run, List.foldl_append, List.foldl_cons, List.foldl_nil]

/-- What holds at the start and is kept by every step holds of every run. -/
theorem run_induction (setup : Setup) (steps : List Step) (P : World → Prop)
    (hstart : P (start setup)) (hstep : ∀ w s, P w → P (w.step s)) : P (run setup steps) := by
  -- Steps are taken from the front, so the statement has to allow any start.
  suffices h : ∀ w, P w → P (steps.foldl step w) from h _ hstart
  induction steps with
  | nil => exact fun _ hw => hw
  | cons s steps ih => exact fun w hw => ih (w.step s) (hstep w s hw)

/-- Every step but the delivery of an unknown expiry leaves a next world. -/
theorem step_eq_next (world : World) (s : Step) :
    world.step s = world ∨ ∃ engine events, world.step s = world.next engine events := by
  cases s with
  | deliver index =>
      rcases h : world.expiries[index]? with _ | expiry
      · exact Or.inl (by simp only [step, h])
      · exact Or.inr ⟨_, _, by simp only [step, h]; rfl⟩
  | offer | flush | advance | refuse => exact Or.inr ⟨_, _, rfl⟩

theorem stores_le_step (world : World) (s : Step) : world.stores ≤ (world.step s).stores := by
  rcases step_eq_next world s with h | ⟨engine, events, h⟩
  · exact Nat.le_of_eq (by rw [h])
  · rw [h]
    exact Nat.le_add_right _ _

theorem releases_le_step (world : World) (s : Step) (pool slot : Nat) :
    world.releases pool slot ≤ (world.step s).releases pool slot := by
  rcases step_eq_next world s with h | ⟨engine, events, h⟩
  · exact Nat.le_of_eq (by rw [h])
  · rw [h]
    exact Nat.le_add_right _ _

/-- Identifiers of frames keep counting the frames that were stored. -/
theorem nextFrame_next (world : World) (engine : Engine) (events : List Event)
    (h : world.nextFrame = UInt64.ofNat world.stores) :
    (world.next engine events).nextFrame = UInt64.ofNat (world.next engine events).stores := by
  -- What is added is a difference of identifiers, so nothing is lost where they
  -- come around.
  simp only [next, nextFrame] at h ⊢
  rw [UInt64.ofNat_add, ← h, UInt64.ofNat_toNat, UInt64.add_comm, UInt64.sub_add_cancel]

end World

/-- A frame with a small segment behind plain IPv4 and TCP headers. All of these
    acknowledge the same, so those that follow each other can be merged. -/
def plainFrame (seq : UInt8) (payload : Octets) : Frame where
  octets := [0x45, 0, 0, UInt8.ofNat (40 + payload.length), 0, 1, 0x40, 0, 64, 6, 0, 0,
    10, 0, 0, 1, 10, 0, 0, 2, 0x1F, 0x90, 0x23, 0x28, 0, 0, 0, seq, 0, 0, 0, 1,
    0x50, 0x10, 0x10, 0, 0, 0, 0, 0] ++ payload

/-- The usual policy. -/
def plainPolicy : Policy where
  sizeLimit_le := Nat.le_refl maxAggregateSize
  timeout_pos := Nat.zero_lt_succ 9

end ReceiveOffload
