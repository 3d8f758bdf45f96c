import ReceiveOffload.Timer.Setup

/-!
# Timer Slots

A pool holds a fixed number of slots. A free slot is armed, an armed one fires
when its deadline has come, and a fired one stays taken until somebody
acknowledges it, so that the work it caused can be done before the slot is
given to anybody else. Releasing a slot raises its generation, which is what
makes every handle to the arming before stale.

The slot released last is the next to be handed out, and where none was
released, the lowest that was never taken. A slot that was never taken has
nothing to remember, so it is recorded only once it is taken: a pool is as
large as the number of timers that were ever armed in it at once, whatever its
capacity.

## Main definitions

* `Arming`: What an armed slot waits for.
* `TimerSlot`: A slot: its generation and what state it is in.
* `SlotPool`: The slots of a pool.
* `SlotPool.arm`: Takes a free slot.
* `SlotPool.owned?`: The slot that an arming owns.
* `SlotPool.release`: Frees the slot that an arming owns.
* `SlotPool.expiries`, `SlotPool.fire`: The slots that are due.
-/

namespace ReceiveOffload

/-- What an armed slot waits for. -/
structure Arming where
  deadline : Nat
  /-- How long the slot runs, for when it is started over. -/
  duration : Nat
  flow : UInt64
  completion : Option Completion
  deriving DecidableEq, Repr

/-- What state a slot is in. -/
inductive Occupancy where
  | free
  | armed (arming : Arming)
  | fired
  deriving DecidableEq, Repr

/-- A slot: how often it was released, and what state it is in. -/
structure TimerSlot where
  generation : UInt32 := 0
  state : Occupancy := .free
  deriving DecidableEq, Repr

namespace TimerSlot

/-- What the slot waited for, if it is due. -/
def due? (now : Nat) (slot : TimerSlot) : Option Arming :=
  match slot.state with
  | .armed arming => if arming.deadline ≤ now then some arming else none
  | _ => none

/-- The slot after it fired, if it is due. -/
def fire (now : Nat) (slot : TimerSlot) : TimerSlot :=
  match slot.due? now with
  | some _ => { slot with state := .fired }
  | none => slot

end TimerSlot

/-- The slots of a pool. -/
structure SlotPool where
  /-- The number of slots. -/
  capacity : Nat
  /-- The slots that were ever taken, by index. -/
  slots : List TimerSlot := []
  /-- Those of them that are free again, the one released last in front. -/
  released : List Nat := []
  deriving DecidableEq, Repr

namespace SlotPool

/-- The number of slots that are not free. -/
def taken (pool : SlotPool) : Nat :=
  pool.slots.length - pool.released.length

/-- The slot that an arming of that generation owns: it is not free, and no
    release came between. -/
def owned? (pool : SlotPool) (index : Nat) (generation : UInt32) : Option TimerSlot :=
  match pool.slots[index]? with
  | none => none
  | some slot =>
    if slot.generation = generation ∧ slot.state ≠ .free then some slot else none

/-- Takes a free slot; gives its index and generation. -/
def arm (pool : SlotPool) (arming : Arming) : Option (Nat × UInt32 × SlotPool) :=
  match pool.released with
  | index :: released =>
    match pool.slots[index]? with
    | none => none
    | some slot =>
      let slots := pool.slots.set index { slot with state := .armed arming }
      some (index, slot.generation, { pool with slots, released })
  | [] =>
    if pool.slots.length < pool.capacity then
      let slot : TimerSlot := { state := .armed arming }
      some (pool.slots.length, slot.generation, { pool with slots := pool.slots ++ [slot] })
    else none

/-- Frees the slot that an arming owns. -/
def release (pool : SlotPool) (index : Nat) (generation : UInt32) : SlotPool :=
  match pool.owned? index generation with
  | none => pool
  | some slot =>
    { pool with
      slots := pool.slots.set index { generation := slot.generation + 1, state := .free }
      released := index :: pool.released }

/-- The slots that are due, by index. -/
def expiries (pool : SlotPool) (id now : Nat) : List Expiry :=
  pool.slots.zipIdx.filterMap fun (slot, index) =>
    (slot.due? now).map fun arming => {
      handle := ⟨id, index, slot.generation⟩
      flow := arming.flow
      completion := arming.completion
      deadline := arming.deadline
    }

/-- Fires the slots that are due. -/
def fire (pool : SlotPool) (now : Nat) : SlotPool :=
  { pool with slots := pool.slots.map (TimerSlot.fire now) }

end SlotPool

end ReceiveOffload
