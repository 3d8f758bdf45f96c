import Mathlib.Data.List.Induction
import ReceiveOffload.Proofs.FreeSlots
import ReceiveOffload.Proofs.Timers

/-!
# Who Has Which Timer

The timers as whoever calls them sees them: handles that were given out, that ran
out, that were given back, and handles that somebody made up or kept for too long.
The calls come in any order and with any handle.

What a handle should own follows from what was seen under it alone. Its tenure
starts when it is given out, and ends when it is released, or is acknowledged after
it ran out. Whatever else is done with it then, it has no second one. Tenures do
not know of slots or generations.

## Main definitions

* `TimerCall`: A call of the timers.
* `Deed`, `Sighting`: What is seen under a handle.
* `Tenure`: How far a handle has come.
* `Custody`: The timers, with everything that was seen of them.
* `Timers.Stale`: A handle that nothing can be done with.

## Theorems

* `Timers.stale_iff`: A handle is stale that owns nothing.
* `Custody.mem_issued_iff`: The handles that were given out are those that have
  started.
* `TimerCall.follows`: No call changes the capacity of a pool, or exceeds it.
* `TimerCall.generation_eq`: Only releases raise generations.
* `TimerCall.owned?_eq_none`: Only arming gives a timer to a handle.
* `Custody.get?_run`, `Custody.capacity_run`, `Custody.fits_run`: What was
  registered is there, and keeps to its capacity.
* `Custody.counted_run`: Generations count the releases.
-/

namespace ReceiveOffload

/-- A call of the timers. -/
inductive TimerCall where
  | register (id capacity : Nat)
  | arm (setup : TimerSetup)
  | release (handle : TimerId)
  | restart (handle : TimerId)
  | acknowledge (handle : TimerId)
  | advance (elapsed : Nat)
  deriving DecidableEq, Repr

/-- What can be seen under a handle. -/
inductive Deed where
  | armed (flow : UInt64)
  | ranOut
  | released
  | acknowledged
  deriving DecidableEq, Repr

/-- What was seen, and under which handle. -/
structure Sighting where
  handle : TimerId
  deed : Deed
  deriving DecidableEq, Repr

namespace TimerCall

/-- The identifier that a call registers a pool under, if it does. -/
def registered? : TimerCall → Option Nat
  | .register id _ => some id
  | _ => none

theorem eq_register {call : TimerCall} {id : Nat} (h : call.registered? = some id) :
    ∃ capacity, call = .register id capacity := by
  cases call <;> cases h
  exact ⟨_, rfl⟩

/-- What a call leaves of the timers. -/
def timers (timers : Timers) : TimerCall → Timers
  | .register id capacity => timers.register id capacity
  | .arm setup => (timers.arm setup).2
  | .release handle => timers.release handle
  | .restart handle => (timers.restart handle).2
  | .acknowledge handle => timers.acknowledge handle
  | .advance elapsed => (timers.advance elapsed).2

/-- What is seen of a call. -/
def sightings (timers : Timers) : TimerCall → List Sighting
  | .arm setup =>
    match (timers.arm setup).1 with
    | .ok handle => [⟨handle, .armed setup.flow⟩]
    | .error _ => []
  | .release handle => [⟨handle, .released⟩]
  | .acknowledge handle => [⟨handle, .acknowledged⟩]
  | .advance elapsed => (timers.advance elapsed).1.map fun e => ⟨e.handle, .ranOut⟩
  | .register _ _ | .restart _ => []

/-- The handle that a call takes its slot from, if there is one. -/
def freed? (timers : Timers) : TimerCall → Option TimerId
  | .release handle => if timers.watch? handle ≠ none then some handle else none
  | .acknowledge handle => if timers.watch? handle = some .fired then some handle else none
  | .register _ _ | .arm _ | .restart _ | .advance _ => none

/-- How often a call releases a slot. -/
def frees (timers : Timers) (pool slot : Nat) (call : TimerCall) : Nat :=
  if (call.freed? timers).any fun h => h.pool = pool ∧ h.slot = slot then 1 else 0

/-- A call frees a slot once at most. -/
theorem frees_le_one (timers : Timers) (pool slot : Nat) (call : TimerCall) :
    call.frees timers pool slot ≤ 1 := by
  unfold frees
  split <;> omega

theorem frees_of_none {timers : Timers} {call : TimerCall} (h : call.freed? timers = none)
    (pool slot : Nat) : call.frees timers pool slot = 0 := by
  rw [frees, h]
  rfl

theorem frees_of_some {timers : Timers} {call : TimerCall} {handle : TimerId}
    (h : call.freed? timers = some handle) (pool slot : Nat) :
    call.frees timers pool slot = if handle.pool = pool ∧ handle.slot = slot then 1 else 0 := by
  simp only [frees, h, Option.any_some, decide_eq_true_iff]

end TimerCall

/-- How far a handle has come. -/
inductive Tenure where
  | unissued
  | running (flow : UInt64)
  | fired
  | ended
  deriving DecidableEq, Repr

namespace Tenure

/-- How far it has come after something was seen under it. -/
def after : Tenure → Deed → Tenure
  | .unissued, .armed flow => .running flow
  | .running _, .ranOut => .fired
  | .running _, .released => .ended
  | .fired, .released => .ended
  | .fired, .acknowledged => .ended
  | tenure, _ => tenure

/-- What the timer does that the handle owns meanwhile. -/
def watch? : Tenure → Option Watch
  | .running flow => some (.waiting flow)
  | .fired => some .fired
  | .unissued | .ended => none

/-- Nothing but arming starts a handle, and it does not go back. -/
theorem after_eq_unissued_iff (tenure : Tenure) (deed : Deed) :
    tenure.after deed = .unissued ↔ tenure = .unissued ∧ ∀ flow, deed ≠ .armed flow := by
  cases tenure with
  | unissued =>
      cases deed with
      | armed flow => exact ⟨fun h => (by cases h), fun h => absurd rfl (h.2 flow)⟩
      | ranOut | released | acknowledged =>
          exact ⟨fun _ => ⟨rfl, fun _ h => by cases h⟩, fun _ => rfl⟩
  | running | fired | ended =>
      cases deed <;> exact ⟨fun h => (by cases h), fun h => (by cases h.1)⟩

/-- A handle that owns nothing gets nothing by being given back. -/
theorem after_released_of_none {tenure : Tenure} (h : tenure.watch? = none) :
    tenure.after .released = tenure := by
  cases tenure with
  | unissued | ended => rfl
  | running | fired => cases h

/-- Who has a timer and releases it has none. -/
theorem after_released_of_some {tenure : Tenure} (h : tenure.watch? ≠ none) :
    tenure.after .released = .ended := by
  cases tenure with
  | unissued | ended => exact absurd rfl h
  | running | fired => rfl

/-- An acknowledgement ends what ran out, and nothing else. -/
theorem after_acknowledged (tenure : Tenure) :
    tenure.after .acknowledged = if tenure.watch? = some .fired then .ended else tenure := by
  cases tenure with
  | unissued | running | ended => exact (if_neg fun h => by cases h).symm
  | fired => exact (if_pos rfl).symm

end Tenure

/-- What was seen under one handle. -/
def deedsOf (handle : TimerId) (sightings : List Sighting) : List Deed :=
  (sightings.filter fun s => s.handle = handle).map Sighting.deed

/-- What is seen of a handle is seen in the order of the sightings. -/
theorem deedsOf_append (handle : TimerId) (old new : List Sighting) :
    deedsOf handle (old ++ new) = deedsOf handle old ++ deedsOf handle new := by
  rw [deedsOf, List.filter_append, List.map_append]
  rfl

theorem deedsOf_singleton (handle other : TimerId) (deed : Deed) :
    deedsOf handle [⟨other, deed⟩] = if other = handle then [deed] else [] := by
  by_cases hother : other = handle <;> simp [deedsOf, hother]

/-- The handles that were given out. -/
def issuedOf (sightings : List Sighting) : List TimerId :=
  sightings.filterMap fun s =>
    match s.deed with
    | .armed _ => some s.handle
    | .ranOut | .released | .acknowledged => none

/-- The timers and what was seen of them, oldest first, with how often each slot
    was released. -/
structure Custody where
  timers : Timers := {}
  history : List Sighting := []
  releases : (pool slot : Nat) → Nat := fun _ _ => 0

namespace Custody

/-- What a call comes to. -/
def step (c : Custody) (call : TimerCall) : Custody where
  timers := call.timers c.timers
  history := c.history ++ call.sightings c.timers
  releases pool slot := c.releases pool slot + call.frees c.timers pool slot

/-- What a list of calls comes to, from no pools at all. -/
def run (calls : List TimerCall) : Custody :=
  calls.foldl step {}

theorem run_concat (calls : List TimerCall) (call : TimerCall) :
    run (calls ++ [call]) = (run calls).step call := by
  simp only [run, List.foldl_append, List.foldl_cons, List.foldl_nil]

/-- The handles that were given out. -/
def issued (c : Custody) : List TimerId :=
  issuedOf c.history

/-- A call adds the handles it gives out to those given out before. -/
theorem issued_step (c : Custody) (call : TimerCall) :
    (c.step call).issued = c.issued ++ issuedOf (call.sightings c.timers) :=
  List.filterMap_append

/-- How far a handle has come. -/
def tenure (c : Custody) (handle : TimerId) : Tenure :=
  (deedsOf handle c.history).foldl Tenure.after .unissued

/-- A call takes a tenure on by what is seen of the handle in it. -/
theorem tenure_step (c : Custody) (call : TimerCall) (handle : TimerId) :
    (c.step call).tenure handle
      = (deedsOf handle (call.sightings c.timers)).foldl Tenure.after (c.tenure handle) := by
  rw [tenure, step, deedsOf_append, List.foldl_append]
  rfl

/-- What is seen under one handle leaves the others where they were. -/
theorem tenure_step_of_singleton (c : Custody) (call : TimerCall) {handle : TimerId} {deed : Deed}
    (h : call.sightings c.timers = [⟨handle, deed⟩]) (other : TimerId) :
    (c.step call).tenure other
      = if handle = other then (c.tenure other).after deed else c.tenure other := by
  rw [tenure_step, h, deedsOf_singleton]
  split <;> rfl

theorem tenure_step_of_nil (c : Custody) {call : TimerCall} (h : call.sightings c.timers = [])
    (handle : TimerId) : (c.step call).tenure handle = c.tenure handle := by
  rw [tenure_step, h]
  rfl

/-- The handles that were given out are those that have started. -/
theorem mem_issued_iff (c : Custody) (handle : TimerId) :
    handle ∈ c.issued ↔ c.tenure handle ≠ .unissued := by
  rcases c with ⟨timers, history, releases⟩
  unfold issued tenure issuedOf
  simp only
  -- By induction on the history from its end, as both sides are about the last sighting.
  induction history using List.reverseRecOn with
  | nil => simp [deedsOf]
  | append_singleton history s ih =>
      rcases s with ⟨other, deed⟩
      rw [deedsOf_append, deedsOf_singleton, List.filterMap_append, List.mem_append, ih,
        List.foldl_append]
      by_cases hother : other = handle
      · rw [if_pos hother, List.foldl_cons, List.foldl_nil, Ne, Ne, Tenure.after_eq_unissued_iff]
        cases deed <;> simp [hother]
      · rw [if_neg hother, List.foldl_nil]
        cases deed <;> simp [Ne.symm hother]

end Custody

namespace Timers

/-- Nothing can be done with a handle. -/
structure Stale (timers : Timers) (handle : TimerId) : Prop where
  arming? : timers.arming? handle = none
  restart : timers.restart handle = (.error .timerNotOwned, timers)
  release : timers.release handle = timers
  acknowledge : timers.acknowledge handle = timers

/-- A handle is stale that owns nothing. -/
theorem stale_iff (timers : Timers) (handle : TimerId) :
    timers.Stale handle ↔ timers.owned? handle = none := by
  constructor
  · intro h
    -- Releasing takes what the handle owns, and has changed nothing.
    have hreleased := timers.owned?_release handle handle
    rwa [h.release, if_pos rfl] at hreleased
  · intro h
    constructor
    case arming? => rw [Timers.arming?, h]
    case acknowledge => rw [Timers.acknowledge, h]
    all_goals
      rcases hget : timers.pools.get? handle.pool with _ | pool
      case none => simp only [Timers.restart, Timers.release, hget]
      rw [timers.owned?_of_get? handle pool hget] at h
    case restart.some => simp only [Timers.restart, hget, h]
    case release.some =>
      simp only [Timers.release, hget, SlotPool.release, h]
      rw [timers.pools.insert_eq_self handle.pool pool hget]

/-- Registering replaces one pool and leaves the others. -/
theorem get?_register (timers : Timers) (id capacity j : Nat) :
    (timers.register id capacity).pools.get? j
      = if id = j then some { capacity } else timers.pools.get? j :=
  Table.get?_insert timers.pools id j { capacity }

/-- Nobody owns anything in a pool of fresh slots. -/
theorem owned?_register (timers : Timers) (id capacity : Nat) (handle : TimerId) :
    (timers.register id capacity).owned? handle
      = if id = handle.pool then none else timers.owned? handle := by
  refine (timers.owned?_setPool id { capacity } handle).trans ?_
  split <;> rfl

/-- Generations start at zero again in a pool that is registered. -/
theorem generation_register (timers : Timers) (id capacity pool slot : Nat) :
    (timers.register id capacity).generation pool slot
      = if id = pool then 0 else timers.generation pool slot := by
  refine (timers.generation_setPool id { capacity } pool slot).trans ?_
  split <;> rfl

/-- The same pools, later. -/
def Follows (timers timers' : Timers) : Prop :=
  ∀ id, (timers.pools.get? id = none ∧ timers'.pools.get? id = none) ∨
    ∃ pool pool', timers.pools.get? id = some pool ∧ timers'.pools.get? id = some pool' ∧
      pool.Follows pool'

theorem Follows.refl (timers : Timers) : timers.Follows timers := by
  intro id
  rcases hget : timers.pools.get? id with _ | pool
  · exact Or.inl ⟨rfl, rfl⟩
  · exact Or.inr ⟨pool, pool, rfl, rfl, .refl pool⟩

theorem Follows.setPool {timers : Timers} {id : Nat} {pool pool' : SlotPool}
    (hget : timers.pools.get? id = some pool) (h : pool.Follows pool') :
    timers.Follows (timers.setPool id pool') := by
  intro j
  rw [Timers.setPool, Table.get?_insert]
  by_cases hid : id = j
  · rw [if_pos hid, ← hid]
    exact Or.inr ⟨pool, pool', hget, rfl, h⟩
  · rw [if_neg hid]
    exact Follows.refl timers j

/-- Releasing keeps to the capacity of every pool. -/
theorem Follows.release (timers : Timers) (handle : TimerId) :
    timers.Follows (timers.release handle) := by
  unfold Timers.release
  rcases hget : timers.pools.get? handle.pool with _ | pool
  · exact .refl timers
  · exact .setPool hget (.release pool handle.slot handle.generation)

end Timers

namespace TimerCall

/-- A call that registers nothing keeps the pools that there are. -/
theorem follows (timers : Timers) (call : TimerCall) (h : call.registered? = none) :
    timers.Follows (call.timers timers) := by
  cases call with
  | register => cases h
  | arm setup =>
      rcases hget : timers.pools.get? setup.pool with _ | pool
      · simp only [TimerCall.timers, Timers.arm, hget]
        exact .refl timers
      · simp only [TimerCall.timers, timers.arm_eq setup pool hget]
        rcases harm : pool.arm (setup.arming timers.now) with _ | ⟨i, g, pool'⟩
        · exact .refl timers
        · exact .setPool hget (.arm harm)
  | release handle => exact .release timers handle
  | restart handle =>
      simp only [TimerCall.timers, Timers.restart]
      rcases hget : timers.pools.get? handle.pool with _ | pool
      · exact .refl timers
      simp only
      split
      · exact .setPool hget (.setSlot pool handle.slot _)
      · exact .refl timers
  | acknowledge handle =>
      simp only [TimerCall.timers, timers.acknowledge_eq]
      split
      · exact .release timers handle
      · exact .refl timers
  -- The clock goes through all pools, so there is no single one to follow.
  | advance elapsed =>
      intro id
      simp only [TimerCall.timers, timers.get?_advance elapsed]
      rcases timers.pools.get? id with _ | pool
      · exact Or.inl ⟨rfl, rfl⟩
      · exact Or.inr ⟨pool, _, rfl, rfl, .fire pool _⟩

/-- Every call keeps the timers sound. -/
theorem sound (call : TimerCall) {timers : Timers} (h : timers.Sound) :
    (call.timers timers).Sound := by
  cases call with
  | register id capacity => exact h.setPool id { capacity } ⟨List.nodup_nil, by simp⟩
  | arm setup =>
      rcases timers.arm_cases setup h with ⟨cause, harm⟩ | ⟨handle, timers', harm, armed⟩
      · rw [TimerCall.timers, harm]
        exact h
      · rw [TimerCall.timers, harm]
        exact armed.sound
  | release handle => exact h.release handle
  | restart handle =>
      rcases timers.restart_cases handle h with ⟨cause, hrestart⟩ | ⟨timers', hrestart, restarted⟩
      · rw [TimerCall.timers, hrestart]
        exact h
      · rw [TimerCall.timers, hrestart]
        exact restarted.sound
  | acknowledge handle => exact h.acknowledge handle
  | advance elapsed => exact h.advance elapsed

/-- A call that takes its slot from a handle releases it, as the handle may. -/
theorem timers_of_freed {timers : Timers} {call : TimerCall} {handle : TimerId}
    (h : call.freed? timers = some handle) :
    call.timers timers = timers.release handle ∧ timers.watch? handle ≠ none := by
  cases call with
  | release other =>
      rw [freed?, Option.ite_none_right_eq_some, Option.some.injEq] at h
      rcases h with ⟨howned, rfl⟩
      exact ⟨rfl, howned⟩
  | acknowledge other =>
      rw [freed?, Option.ite_none_right_eq_some, Option.some.injEq] at h
      rcases h with ⟨hfired, rfl⟩
      rw [TimerCall.timers, timers.acknowledge_eq, if_pos hfired, hfired]
      exact ⟨rfl, Option.some_ne_none _⟩
  | register | arm | restart | advance => cases h

/-- A call that takes no slot from any handle raises no generation. -/
theorem generation_of_unfreed {timers : Timers} (sound : timers.Sound) {call : TimerCall}
    (h : call.freed? timers = none) (pool slot : Nat) (hkeeps : call.registered? ≠ some pool) :
    (call.timers timers).generation pool slot = timers.generation pool slot := by
  -- Of the calls that could free a slot, the hypothesis says that they did not.
  cases call with
  | register id capacity =>
      have hother : id ≠ pool := fun hid => hkeeps (congrArg some hid)
      exact (timers.generation_register id capacity pool slot).trans (if_neg hother)
  | arm setup =>
      rcases timers.arm_cases setup sound with ⟨cause, harm⟩ | ⟨handle, timers', harm, armed⟩
      · rw [TimerCall.timers, harm]
      · rw [TimerCall.timers, harm]
        exact armed.generation pool slot
  | release handle =>
      rw [freed?, ite_eq_right_iff] at h
      rw [TimerCall.timers, timers.generation_release, if_neg]
      · exact UInt32.add_zero _
      · exact fun hall => by cases h hall.2.2
  | restart handle =>
      rcases timers.restart_cases handle sound with
        ⟨cause, hrestart⟩ | ⟨timers', hrestart, restarted⟩
      · rw [TimerCall.timers, hrestart]
      · rw [TimerCall.timers, hrestart]
        exact restarted.generation pool slot
  | acknowledge handle =>
      rw [freed?, ite_eq_right_iff] at h
      rw [TimerCall.timers, timers.acknowledge_eq, if_neg]
      exact fun hfired => by cases h hfired
  | advance elapsed => exact timers.generation_advance elapsed pool slot

/-- A call raises a generation as often as it releases the slot, unless it replaces
    the pool. -/
theorem generation_eq {timers : Timers} (sound : timers.Sound) (call : TimerCall)
    (pool slot : Nat) (hkeeps : call.registered? ≠ some pool) :
    (call.timers timers).generation pool slot
      = timers.generation pool slot + UInt32.ofNat (call.frees timers pool slot) := by
  rcases hfreed : call.freed? timers with _ | handle
  · rw [generation_of_unfreed sound hfreed pool slot hkeeps, frees_of_none hfreed]
    exact (UInt32.add_zero _).symm
  · rcases timers_of_freed hfreed with ⟨htimers, howned⟩
    rw [htimers, timers.generation_release, frees_of_some hfreed]
    simp only [ne_eq, howned, not_false_eq_true, and_true]
    split <;> rfl

/-- Nothing but arming gives a timer to a handle that has none. -/
theorem owned?_eq_none {timers : Timers} (h : timers.Sound) (call : TimerCall) (handle : TimerId)
    (hnone : timers.owned? handle = none)
    (hnew : ∀ setup, call = .arm setup → (timers.arm setup).1 ≠ .ok handle) :
    (call.timers timers).owned? handle = none := by
  cases call with
  | register id capacity =>
      rw [TimerCall.timers, timers.owned?_register]
      split
      · rfl
      · exact hnone
  | arm setup =>
      have hother := hnew setup rfl
      rcases timers.arm_cases setup h with ⟨cause, harm⟩ | ⟨other, timers', harm, armed⟩
      · rw [TimerCall.timers, harm]
        exact hnone
      · rw [harm] at hother
        rw [TimerCall.timers, harm, armed.owned? handle (fun hsame => hother (hsame ▸ rfl))]
        exact hnone
  | release other =>
      rw [TimerCall.timers, timers.owned?_release]
      split
      · rfl
      · exact hnone
  | restart other =>
      rcases timers.restart_cases other h with ⟨cause, hrestart⟩ | ⟨timers', hrestart, restarted⟩
      · rw [TimerCall.timers, hrestart]
        exact hnone
      · -- What starts over is owned by somebody else, and by nobody new.
        rw [TimerCall.timers, hrestart, ← Timers.watch?_eq_none_iff, restarted.watch?,
          Timers.watch?_eq_none_iff]
        exact hnone
  | acknowledge other =>
      rw [TimerCall.timers, timers.acknowledge_eq]
      split
      · rw [timers.owned?_release]
        split
        · rfl
        · exact hnone
      · exact hnone
  | advance elapsed =>
      rw [TimerCall.timers, timers.owned?_advance, hnone]
      rfl

end TimerCall

namespace Custody

/-- Whatever is called, the pools are sound. -/
theorem sound_run (calls : List TimerCall) : (run calls).timers.Sound := by
  induction calls using List.reverseRecOn with
  | nil => exact ⟨List.nodup_nil, fun _ _ h => by cases h⟩
  | append_singleton calls call ih =>
      rw [run_concat]
      exact call.sound ih

/-- What was registered is there, and nothing else. -/
theorem get?_run (calls : List TimerCall) (id : Nat) :
    (run calls).timers.pools.get? id = none ↔ id ∉ calls.filterMap TimerCall.registered? := by
  induction calls using List.reverseRecOn with
  | nil => simp [run, Table.get?, Table.lookup]
  | append_singleton calls call ih =>
      rw [run_concat, List.filterMap_append, List.mem_append, not_or, ← ih]
      -- Calls other than a registration neither add a pool nor take one away.
      rcases hregister : call.registered? with _ | j
      · rcases call.follows (run calls).timers hregister id with
          ⟨hold, hnew⟩ | ⟨pool, pool', hold, hnew, _⟩
        · simp [step, hold, hnew, hregister]
        · simp [step, hold, hnew]
      · rcases TimerCall.eq_register hregister with ⟨capacity, rfl⟩
        simp only [step, TimerCall.timers, Timers.get?_register]
        by_cases hid : j = id
        · simp [TimerCall.registered?, hid]
        · simp [TimerCall.registered?, hid, Ne.symm hid]

/-- In a pool that is registered once, a generation is how often the slot was
    released. -/
theorem counted_run (calls : List TimerCall)
    (honce : (calls.filterMap TimerCall.registered?).Nodup) (pool slot : Nat) :
    (run calls).timers.generation pool slot = UInt32.ofNat ((run calls).releases pool slot) := by
  induction calls using List.reverseRecOn with
  | nil => rfl
  | append_singleton calls call ih =>
      rw [List.filterMap_append, List.nodup_append] at honce
      have hbefore := ih honce.1
      rw [run_concat]
      show (call.timers (run calls).timers).generation pool slot = UInt32.ofNat
        ((run calls).releases pool slot + call.frees (run calls).timers pool slot)
      by_cases hregister : call.registered? = some pool
      · -- The pool was not there before, so none of its slots was ever released.
        have hnew : (run calls).timers.pools.get? pool = none := by
          rw [get?_run]
          exact fun hearlier => honce.2.2 pool hearlier pool (by simp [hregister]) rfl
        rw [Timers.generation, hnew] at hbefore
        rcases TimerCall.eq_register hregister with ⟨capacity, rfl⟩
        rw [TimerCall.frees_of_none rfl, Nat.add_zero, ← hbefore]
        exact (Timers.generation_register _ pool capacity pool slot).trans (if_pos rfl)
      · rw [TimerCall.generation_eq (sound_run calls) call pool slot hregister, hbefore,
          UInt32.ofNat_add]

/-- No pool has more slots than its capacity, in any run. -/
theorem fits_run (calls : List TimerCall) :
    ∀ id pool, (run calls).timers.pools.get? id = some pool → pool.Fits := by
  induction calls using List.reverseRecOn with
  | nil => exact fun _ _ h => by cases h
  | append_singleton calls call ih =>
      intro id pool' hnew
      rw [run_concat] at hnew
      rcases hregister : call.registered? with _ | j
      · rcases call.follows (run calls).timers hregister id with
          ⟨_, hgone⟩ | ⟨pool, found, hold, hfound, hfollows⟩
        · cases hgone.symm.trans hnew
        · cases hfound.symm.trans hnew
          exact hfollows.fits (ih id pool hold)
      · rcases TimerCall.eq_register hregister with ⟨capacity, rfl⟩
        simp only [step, TimerCall.timers, Timers.get?_register] at hnew
        by_cases hid : j = id
        · rw [if_pos hid, Option.some.injEq] at hnew
          rw [← hnew]
          exact Nat.zero_le capacity
        · rw [if_neg hid] at hnew
          exact ih id pool' hnew

/-- A pool that is registered once is there with the capacity that was asked for. -/
theorem capacity_run (calls : List TimerCall)
    (honce : (calls.filterMap TimerCall.registered?).Nodup) (id capacity : Nat)
    (h : .register id capacity ∈ calls) :
    ∃ pool, (run calls).timers.pools.get? id = some pool ∧ pool.capacity = capacity := by
  induction calls using List.reverseRecOn with
  | nil => cases h
  | append_singleton calls call ih =>
      rw [List.filterMap_append, List.nodup_append] at honce
      rw [List.mem_append, List.mem_singleton] at h
      rw [run_concat]
      rcases h with hearlier | rfl
      · rcases ih honce.1 hearlier with ⟨pool, hold, hcapacity⟩
        rcases hregister : call.registered? with _ | j
        · rcases call.follows (run calls).timers hregister id with
            ⟨hgone, _⟩ | ⟨found, pool', hfound, hnew, hfollows⟩
          · cases hgone.symm.trans hold
          · cases hfound.symm.trans hold
            exact ⟨pool', hnew, hfollows.capacity.trans hcapacity⟩
        · -- It was registered before, so this registers another.
          have hother : j ≠ id := by
            rintro rfl
            refine honce.2.2 j (List.mem_filterMap.mpr ⟨_, hearlier, rfl⟩) j ?_ rfl
            simp [hregister]
          rcases TimerCall.eq_register hregister with ⟨capacity', rfl⟩
          refine ⟨pool, ?_, hcapacity⟩
          simp only [step, TimerCall.timers, Timers.get?_register, if_neg hother, hold]
      · refine ⟨{ capacity }, ?_, rfl⟩
        simp only [step, TimerCall.timers, Timers.get?_register, if_true]

end Custody

end ReceiveOffload
