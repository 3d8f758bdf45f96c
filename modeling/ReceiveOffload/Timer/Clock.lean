import ReceiveOffload.Failure
import ReceiveOffload.Table
import ReceiveOffload.Timer.Slots

/-!
# Timers on a Clock

The timer pools and the clock that they run on. The clock counts milliseconds
and moves only when it is told to, so nothing ever fires by itself: moving the
clock is what hands out the expiries, earliest first, and whoever moved it has
to pass them on.

Releasing, restarting and acknowledging go through handles, and a handle that
no longer owns its slot changes nothing. Restarting keeps the duration and the
completion with which the timer was armed.

Registering a pool under an identifier that is taken replaces that pool by one
of fresh slots.

Instants are counted in sixty-four bits. The clock stops at the last of them, but
a deadline that would lie beyond it does not: it starts over from the first, lies
in the past then, and the timer runs out when the clock is next moved.

## Main definitions

* `instantAfter`: The instant that comes so many milliseconds after another.
* `Timers`: The pools and the clock.
* `Timers.arming?`: What the timer under a handle waits for.
* `Timers.arm`: Arms a timer.
* `Timers.release`: Cancels an armed timer or releases a fired one.
* `Timers.restart`: Starts an armed timer over.
* `Timers.acknowledge`: Releases a fired timer.
* `Timers.advance`: Moves the clock and hands out what ran out.
-/

namespace ReceiveOffload

/-- The last instant that the clock can show. -/
def lastInstant : Nat :=
  UInt64.size - 1

/-- The instant that comes so many milliseconds after another, in sixty-four bits. -/
def instantAfter (instant milliseconds : Nat) : Nat :=
  (instant + milliseconds) % UInt64.size

/-- The number of slots in the pool that is there from the start. -/
def standardTimerSlots : Nat :=
  1024

/-- The timer pools and the clock that they run on, in milliseconds. -/
structure Timers where
  now : Nat := 0
  pools : Table Nat SlotPool := {}
  deriving DecidableEq, Repr

namespace Timers

/-- Registers a pool of fresh slots, in place of any that was there before. -/
def register (timers : Timers) (id capacity : Nat) : Timers :=
  { timers with pools := timers.pools.insert id { capacity } }

/-- Timers with pools of the given identifiers and capacities. -/
def ofPools (pools : List (Nat × Nat)) : Timers :=
  pools.foldl (fun timers (id, capacity) => timers.register id capacity) {}

/-- Timers with one pool, under identifier 0. -/
def standard : Timers :=
  ofPools [(0, standardTimerSlots)]

/-- The number of slots of a pool that are armed, or fired and not yet
    acknowledged. -/
def taken (timers : Timers) (pool : Nat) : Nat :=
  match timers.pools.get? pool with
  | some pool => pool.taken
  | none => 0

/-- The slot that a handle owns. -/
def owned? (timers : Timers) (handle : TimerId) : Option TimerSlot :=
  match timers.pools.get? handle.pool with
  | some pool => pool.owned? handle.slot handle.generation
  | none => none

/-- What the timer under a handle waits for, if it is armed. -/
def arming? (timers : Timers) (handle : TimerId) : Option Arming :=
  match timers.owned? handle with
  | some ⟨_, .armed arming⟩ => some arming
  | _ => none

/-- Arms a timer. -/
def arm (timers : Timers) (setup : TimerSetup) : Except Failure TimerId × Timers :=
  match timers.pools.get? setup.pool with
  | none => (.error (.unknownTimerPool setup.pool), timers)
  | some pool =>
    let arming : Arming := {
      deadline := instantAfter timers.now setup.milliseconds
      duration := setup.milliseconds
      flow := setup.flow
      completion := setup.completion
    }
    match pool.arm arming with
    | none => (.error (.timersExhausted setup.pool), timers)
    | some (slot, generation, pool) =>
      (.ok ⟨setup.pool, slot, generation⟩,
        { timers with pools := timers.pools.insert setup.pool pool })

/-- Releases the slot that a handle owns, whether it is armed or has fired. -/
def release (timers : Timers) (handle : TimerId) : Timers :=
  match timers.pools.get? handle.pool with
  | none => timers
  | some pool =>
    { timers with
      pools := timers.pools.insert handle.pool (pool.release handle.slot handle.generation) }

/-- Starts an armed timer over. -/
def restart (timers : Timers) (handle : TimerId) : Except Failure Unit × Timers :=
  match timers.pools.get? handle.pool with
  | none => (.error .timerNotOwned, timers)
  | some pool =>
    match pool.owned? handle.slot handle.generation with
    | some ⟨generation, .armed arming⟩ =>
      let arming := { arming with deadline := instantAfter timers.now arming.duration }
      let pool := { pool with slots := pool.slots.set handle.slot ⟨generation, .armed arming⟩ }
      (.ok (), { timers with pools := timers.pools.insert handle.pool pool })
    | _ => (.error .timerNotOwned, timers)

/-- Releases the slot that a handle owns, provided that it has fired. -/
def acknowledge (timers : Timers) (handle : TimerId) : Timers :=
  match timers.owned? handle with
  | some ⟨_, .fired⟩ => timers.release handle
  | _ => timers

/-- Moves the clock on, no further than it can show, and hands out the timers
    that ran out, earliest first. -/
def advance (timers : Timers) (elapsed : Nat) : List Expiry × Timers :=
  let now := min (timers.now + elapsed) lastInstant
  let expiries := timers.pools.entries.flatMap fun (id, pool) => pool.expiries id now
  (Expiry.sortByDeadline expiries,
    { now, pools := timers.pools.mapValues fun pool => pool.fire now })

end Timers

end ReceiveOffload
