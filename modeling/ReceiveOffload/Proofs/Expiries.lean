import Mathlib.Data.List.Sort
import ReceiveOffload.Proofs.TimerCalls

/-!
# What Moving the Clock Hands Out

The slots of every pool are looked through in turn, what is due fires in its place,
and what has fired is sorted by deadline afterwards. The sort is stable, and the slots
of a pool were found in order, so among equal deadlines of one pool the lower slot
comes first. `Expiry.pairwise_sortByDeadline` is stability for any order that the
expiries were found in.

Moving the clock twice is moving it once by as much. What is due at the earlier time is
found in the same place at the later time, only that what fell due in between stands
next to it. Sorting takes the two apart again: everything up to some deadline comes in
front, each part sorted by itself, which is `Expiry.sortByDeadline_cut`.

A slot that has fired does not wait any more, and only arming makes it wait again. So
whatever is called, with old handles or made-up ones, and with pools that are
registered again, a timer runs out at most once since it was armed.

## Main definitions

* `Timers.slot?`: A slot of a pool.
* `Expiry.Before`: The order in which expiries are handed out.
* `Timers.Fires`: What moving the clock comes to.
* `Custody.ranOut`: How often a handle ran out since it was given out.

## Theorems

* `Expiry.pairwise_sortByDeadline`, `Expiry.sortByDeadline_cut`: The sort is stable,
  and cuts at every deadline.
* `Timers.Sound.fires`: What is due is handed out, in order, and fires.
* `Timers.advance_advance`: Moving the clock twice is moving it once.
* `expiries_due`: All of that, and no arming runs out twice, whatever is called.
-/

namespace ReceiveOffload

namespace Expiry

/-- Insertion by deadline is that of an insertion sort. -/
theorem insertByDeadline_eq (expiry : Expiry) (expiries : List Expiry) :
    expiry.insertByDeadline expiries
      = expiries.orderedInsert (fun e e' => e.deadline ≤ e'.deadline) expiry := by
  induction expiries with
  | nil => rfl
  | cons other rest ih => rw [insertByDeadline, ih, List.orderedInsert_cons]

/-- Expiries are sorted by insertion. -/
theorem sortByDeadline_eq (expiries : List Expiry) :
    sortByDeadline expiries
      = expiries.insertionSort fun e e' => e.deadline ≤ e'.deadline := by
  induction expiries with
  | nil => rfl
  | cons expiry rest ih => rw [sortByDeadline, insertByDeadline_eq, ih, List.insertionSort_cons]

/-- Sorting loses no expiry and adds none. -/
theorem sortByDeadline_perm (expiries : List Expiry) : (sortByDeadline expiries).Perm expiries := by
  rw [sortByDeadline_eq]
  exact List.perm_insertionSort _ expiries

section Stable

variable {r : Expiry → Expiry → Prop}

/-- An expiry that was found before all others is put in front of those with the same
    deadline. -/
theorem pairwise_insertByDeadline (expiry : Expiry) (expiries : List Expiry)
    (hfront : ∀ e ∈ expiries, r expiry e)
    (hsorted : expiries.Pairwise fun e e' =>
      e.deadline < e'.deadline ∨ e.deadline = e'.deadline ∧ r e e') :
    (expiry.insertByDeadline expiries).Pairwise fun e e' =>
      e.deadline < e'.deadline ∨ e.deadline = e'.deadline ∧ r e e' := by
  induction expiries with
  | nil => exact List.pairwise_singleton _ _
  | cons other rest ih =>
      rcases List.pairwise_cons.mp hsorted with ⟨hother, hrest⟩
      rw [insertByDeadline]
      split
      case isTrue hle =>
        refine List.pairwise_cons.mpr ⟨fun e he => ?_, hsorted⟩
        -- What comes after the first one that is not earlier is not earlier either.
        have hlate : expiry.deadline ≤ e.deadline := by
          rcases List.mem_cons.mp he with rfl | he
          · exact hle
          · rcases hother e he with hlt | ⟨heq, _⟩ <;> omega
        rcases Nat.lt_or_eq_of_le hlate with hlt | heq
        · exact Or.inl hlt
        · exact Or.inr ⟨heq, hfront e he⟩
      case isFalse hgt =>
        refine List.pairwise_cons.mpr
          ⟨fun e he => ?_, ih (fun e he => hfront e (List.mem_cons_of_mem other he)) hrest⟩
        rcases (mem_insertByDeadline expiry e rest).mp he with rfl | he
        · exact Or.inl (Nat.lt_of_not_le hgt)
        · exact hother e he

/-- Sorting by deadline is stable: expiries of one deadline keep the order that they
    were found in. -/
theorem pairwise_sortByDeadline (expiries : List Expiry) (h : expiries.Pairwise r) :
    (sortByDeadline expiries).Pairwise fun e e' =>
      e.deadline < e'.deadline ∨ e.deadline = e'.deadline ∧ r e e' := by
  induction expiries with
  | nil => exact List.Pairwise.nil
  | cons expiry rest ih =>
      rcases List.pairwise_cons.mp h with ⟨hfront, hrest⟩
      -- Everything that is sorted already was found later.
      refine pairwise_insertByDeadline expiry _ (fun e he => ?_) (ih hrest)
      exact hfront e ((mem_sortByDeadline e rest).mp he)

end Stable

theorem insertByDeadline_append_left (expiry : Expiry) (early late : List Expiry)
    (hlate : ∀ e ∈ late, expiry.deadline ≤ e.deadline) :
    expiry.insertByDeadline (early ++ late) = expiry.insertByDeadline early ++ late := by
  induction early with
  | nil =>
      rcases late with _ | ⟨other, rest⟩
      · rfl
      · exact if_pos (hlate other List.mem_cons_self)
  | cons other rest ih =>
      simp only [List.cons_append, insertByDeadline, ih]
      split <;> rfl

theorem insertByDeadline_append_right (expiry : Expiry) (early late : List Expiry)
    (hearly : ∀ e ∈ early, e.deadline < expiry.deadline) :
    expiry.insertByDeadline (early ++ late) = early ++ expiry.insertByDeadline late := by
  induction early with
  | nil => rfl
  | cons other rest ih =>
      have hother := hearly other List.mem_cons_self
      rw [List.cons_append, insertByDeadline, if_neg (by omega),
        ih fun e he => hearly e (List.mem_cons_of_mem other he)]
      rfl

/-- What is due at some time comes before what is due later, each sorted by itself. -/
theorem sortByDeadline_cut (expiries : List Expiry) (now : Nat) :
    sortByDeadline expiries
      = sortByDeadline (expiries.filter fun e => e.deadline ≤ now)
        ++ sortByDeadline (expiries.filter fun e => now < e.deadline) := by
  induction expiries with
  | nil => rfl
  | cons expiry rest ih =>
      by_cases hdue : expiry.deadline ≤ now
      -- What is due stops before everything late, and what is late passes all that is due.
      · have hlate : ∀ e ∈ sortByDeadline (rest.filter fun e => now < e.deadline),
            expiry.deadline ≤ e.deadline := by
          intro e he
          rw [mem_sortByDeadline, List.mem_filter, decide_eq_true_iff] at he
          omega
        simp only [List.filter_cons, hdue, Nat.not_lt.mpr hdue, decide_true, decide_false,
          if_true, Bool.false_eq_true, if_false]
        rw [sortByDeadline, ih, insertByDeadline_append_left expiry _ _ hlate, sortByDeadline]
      · have hearly : ∀ e ∈ sortByDeadline (rest.filter fun e => e.deadline ≤ now),
            e.deadline < expiry.deadline := by
          intro e he
          rw [mem_sortByDeadline, List.mem_filter, decide_eq_true_iff] at he
          omega
        simp only [List.filter_cons, hdue, Nat.lt_of_not_le hdue, decide_true, decide_false,
          if_true, Bool.false_eq_true, if_false]
        rw [sortByDeadline, ih, insertByDeadline_append_right expiry _ _ hearly, sortByDeadline]

/-- One expiry is handed out before another: by deadline, and by slot if both are of
    one pool. -/
def Before (e e' : Expiry) : Prop :=
  e.deadline < e'.deadline ∨
    e.deadline = e'.deadline ∧ (e.handle.pool = e'.handle.pool → e.handle.slot < e'.handle.slot)

end Expiry

namespace TimerSlot

/-- What a slot waited for that is due later, if it was not due already. -/
theorem due?_fire (now later : Nat) (slot : TimerSlot) (hle : now ≤ later) :
    (slot.fire now).due? later
      = (slot.due? later).filter fun arming => now < arming.deadline := by
  rcases slot with ⟨generation, _ | arming | _⟩
  · rfl
  · by_cases hnow : arming.deadline ≤ now
    · have hlater := Nat.le_trans hnow hle
      simp [fire, due?, hnow, hlater, Option.filter, Nat.not_lt.mpr hnow]
    · by_cases hlater : arming.deadline ≤ later <;>
        simp [fire, due?, hnow, hlater, Option.filter, Nat.lt_of_not_le hnow]
  · rfl

/-- What a slot waits for that is due already, of what is due later. -/
theorem due?_of_le (now later : Nat) (slot : TimerSlot) (hle : now ≤ later) :
    slot.due? now = (slot.due? later).filter fun arming => arming.deadline ≤ now := by
  rcases slot with ⟨generation, _ | arming | _⟩
  · rfl
  · by_cases hnow : arming.deadline ≤ now
    · have hlater := Nat.le_trans hnow hle
      simp [due?, hnow, hlater, Option.filter]
    · by_cases hlater : arming.deadline ≤ later <;> simp [due?, hnow, hlater, Option.filter]
  · rfl

/-- What has fired at one time or the other has fired at the later one. -/
theorem fire_fire (now later : Nat) (slot : TimerSlot) (hle : now ≤ later) :
    (slot.fire now).fire later = slot.fire later := by
  rcases slot with ⟨generation, _ | arming | _⟩
  · rfl
  · by_cases hnow : arming.deadline ≤ now
    · have hlater := Nat.le_trans hnow hle
      simp [fire, due?, hnow, hlater]
    · simp [fire, due?, hnow]
  · rfl

end TimerSlot

namespace SlotPool

/-- The expiries of a pool are found by slot. -/
theorem pairwise_expiries (pool : SlotPool) (id now : Nat) :
    (pool.expiries id now).Pairwise fun e e' =>
      e.handle.pool = e'.handle.pool → e.handle.slot < e'.handle.slot := by
  have hindex : pool.slots.zipIdx.Pairwise fun s s' => s.2 < s'.2 := by
    rw [← List.pairwise_map (f := Prod.snd), List.zipIdx_map_snd]
    exact List.pairwise_lt_range'
  unfold expiries
  rw [List.pairwise_filterMap]
  refine hindex.imp ?_
  intro s s' hlt e he e' he' _
  rw [Option.map_eq_some_iff] at he he'
  rcases he with ⟨arming, _, rfl⟩
  rcases he' with ⟨arming', _, rfl⟩
  exact hlt

theorem pool_of_mem_expiries (pool : SlotPool) (id now : Nat) (e : Expiry)
    (h : e ∈ pool.expiries id now) : e.handle.pool = id := by
  simp only [expiries, List.mem_filterMap, Option.map_eq_some_iff] at h
  rcases h with ⟨_, _, _, _, rfl⟩
  rfl

/-- What is due in a pool is due later as well, in the same order. -/
theorem expiries_of_le (pool : SlotPool) (id now later : Nat) (hle : now ≤ later) :
    pool.expiries id now = (pool.expiries id later).filter fun e => e.deadline ≤ now := by
  rw [expiries, expiries, List.filter_filterMap]
  refine List.filterMap_congr fun entry _ => ?_
  rcases entry with ⟨slot, i⟩
  simp only [slot.due?_of_le now later hle]
  rcases slot.due? later with _ | arming
  · rfl
  · by_cases hdue : arming.deadline ≤ now <;> simp [Option.filter, hdue]

/-- What is due in a pool after it fired is what was not due before. -/
theorem expiries_fire (pool : SlotPool) (id now later : Nat) (hle : now ≤ later) :
    (pool.fire now).expiries id later
      = (pool.expiries id later).filter fun e => now < e.deadline := by
  rw [expiries, expiries, List.filter_filterMap, fire, List.zipIdx_map, List.filterMap_map]
  refine List.filterMap_congr fun entry _ => ?_
  rcases entry with ⟨slot, i⟩
  simp only [Function.comp_apply, Prod.map_apply, id_eq, slot.due?_fire now later hle,
    TimerSlot.generation_fire]
  rcases slot.due? later with _ | arming
  · rfl
  · by_cases hdue : now < arming.deadline <;> simp [Option.filter, hdue]

/-- Who has fired by some time and fires again later has fired by the later time. -/
theorem fire_fire (pool : SlotPool) (now later : Nat) (hle : now ≤ later) :
    (pool.fire now).fire later = pool.fire later := by
  simp only [fire, List.map_map]
  congr 1
  refine List.map_congr_left fun slot _ => ?_
  exact slot.fire_fire now later hle

end SlotPool

namespace Timers

section Twice

variable (timers : Timers) (a b : Nat)

/-- The clock goes as far in two moves as in one. -/
theorem moved_add : (timers.advance a).2.moved b = timers.moved (a + b) := by
  simp only [moved, advance]
  omega

theorem moved_le : timers.moved a ≤ timers.moved (a + b) := by
  simp only [moved]
  omega

/-- Moving the clock twice is moving it once by as much. -/
theorem advance_add :
    timers.advance (a + b)
      = ((timers.advance a).1 ++ ((timers.advance a).2.advance b).1,
          ((timers.advance a).2.advance b).2) := by
  have hle := timers.moved_le a b
  have hmoved := timers.moved_add a b
  simp only [moved] at hle hmoved
  rw [Prod.mk.injEq]
  constructor
  · -- The cut at the earlier time, with either part found pool by pool.
    rw [advance, Expiry.sortByDeadline_cut _ (min (timers.now + a) lastInstant),
      List.filter_flatMap, List.filter_flatMap]
    simp only [advance, Table.mapValues, List.flatMap_map] at hmoved ⊢
    rw [hmoved]
    simp only [← SlotPool.expiries_of_le _ _ _ _ hle, SlotPool.expiries_fire _ _ _ _ hle]
  -- The slots that are left have fired up to the later time either way.
  · simp only [advance, Timers.mk.injEq] at hmoved ⊢
    refine ⟨hmoved.symm, ?_⟩
    rw [hmoved]
    simp only [Table.mapValues, List.map_map, Function.comp_def, SlotPool.fire_fire _ _ _ hle]

end Twice

/-- A slot of a pool, if it was ever taken. -/
def slot? (timers : Timers) (id i : Nat) : Option TimerSlot :=
  (timers.pools.get? id).bind fun pool => pool.slots[i]?

theorem owned?_eq_some_iff (timers : Timers) (handle : TimerId) (slot : TimerSlot) :
    timers.owned? handle = some slot ↔ timers.slot? handle.pool handle.slot = some slot ∧
      slot.generation = handle.generation ∧ slot.state ≠ .free := by
  rcases hget : timers.pools.get? handle.pool with _ | pool
  · simp only [timers.owned?_of_get?_none handle hget, slot?, hget, Option.bind_none, reduceCtorEq,
      false_and]
  · rw [timers.owned?_of_get? handle pool hget, pool.owned?_eq_some_iff, slot?, hget,
      Option.bind_some]

/-- Moving the clock lets each slot fire in its place. -/
theorem slot?_advance (timers : Timers) (elapsed id i : Nat) :
    (timers.advance elapsed).2.slot? id i
      = (timers.slot? id i).map (TimerSlot.fire (timers.moved elapsed)) := by
  rw [slot?, slot?, get?_advance]
  rcases timers.pools.get? id with _ | pool
  · rfl
  · exact pool.getElem?_fire _ i

/-- What moving the clock comes to: what it hands out, and what it leaves. -/
structure Fires (timers : Timers) (elapsed : Nat) : Prop where
  now : (timers.advance elapsed).2.now = min (timers.now + elapsed) lastInstant
  /-- What is handed out are the slots that wait for a deadline that has come, each with
      its handle, the flow that it was armed for and whom to tell. -/
  handed : ∀ e, e ∈ (timers.advance elapsed).1 ↔ ∃ arming,
    timers.slot? e.handle.pool e.handle.slot = some ⟨e.handle.generation, .armed arming⟩ ∧
      arming.deadline ≤ (timers.advance elapsed).2.now ∧ arming.deadline = e.deadline ∧
      arming.flow = e.flow ∧ arming.completion = e.completion
  once : ((timers.advance elapsed).1.map Expiry.handle).Nodup
  ordered : (timers.advance elapsed).1.Pairwise Expiry.Before
  /-- What was handed out has fired, and every other slot is as it was. -/
  slots : ∀ id i, (timers.advance elapsed).2.slot? id i = (timers.slot? id i).map fun slot =>
    if ⟨id, i, slot.generation⟩ ∈ (timers.advance elapsed).1.map Expiry.handle
      then { slot with state := .fired } else slot
  /-- No pool comes or goes, and none has other slots to give out than before. -/
  pools : ∀ id, ((timers.advance elapsed).2.pools.get? id).map
      (fun pool => (pool.capacity, pool.slots.length, pool.released))
    = (timers.pools.get? id).map fun pool => (pool.capacity, pool.slots.length, pool.released)

/-- The expiries are found by pool, and by slot in each of them. -/
theorem pairwise_found {timers : Timers} (h : timers.Sound) (now : Nat) :
    (timers.pools.entries.flatMap fun entry => entry.2.expiries entry.1 now).Pairwise fun e e' =>
      e.handle.pool = e'.handle.pool → e.handle.slot < e'.handle.slot := by
  rw [List.pairwise_flatMap]
  refine ⟨fun entry _ => entry.2.pairwise_expiries entry.1 now, ?_⟩
  refine (List.pairwise_map.mp h.distinct).imp fun hne e he e' he' hpool => ?_
  -- Different entries are different pools.
  rw [SlotPool.pool_of_mem_expiries _ _ _ e he, SlotPool.pool_of_mem_expiries _ _ _ e' he'] at hpool
  exact absurd hpool hne

/-- What is due is handed out, in order, and fires, and that is all. -/
theorem Sound.fires {timers : Timers} (h : timers.Sound) (elapsed : Nat) :
    timers.Fires elapsed := by
  have hfound := pairwise_found h (timers.moved elapsed)
  have handed : ∀ e, e ∈ (timers.advance elapsed).1 ↔ ∃ arming,
      timers.slot? e.handle.pool e.handle.slot = some ⟨e.handle.generation, .armed arming⟩ ∧
        arming.deadline ≤ timers.moved elapsed ∧ arming.deadline = e.deadline ∧
        arming.flow = e.flow ∧ arming.completion = e.completion := by
    intro e
    simp only [mem_advance h elapsed e, timers.owned?_eq_some_iff, TimerSlot.due?_eq_some_iff]
    constructor
    · rintro ⟨⟨generation, state⟩, arming, ⟨hslot, rfl, _⟩, ⟨rfl, hdue⟩, hflow, hcompletion,
        hdeadline⟩
      exact ⟨arming, hslot, hdue, hdeadline, hflow, hcompletion⟩
    · rintro ⟨arming, hslot, hdue, hdeadline, hflow, hcompletion⟩
      exact ⟨_, arming, ⟨hslot, rfl, by simp⟩, ⟨rfl, hdue⟩, hflow, hcompletion, hdeadline⟩
  constructor
  case now => rfl
  case handed => exact handed
  -- Pools are gone through in turn and slots from below, so none is found twice.
  case once =>
    refine ((Expiry.sortByDeadline_perm _).map Expiry.handle).nodup_iff.mpr ?_
    refine List.pairwise_map.mpr (hfound.imp fun hslot hsame => ?_)
    have hlt := hslot (congrArg TimerId.pool hsame)
    exact Nat.ne_of_lt hlt (congrArg TimerId.slot hsame)
  case ordered => exact Expiry.pairwise_sortByDeadline _ hfound
  case slots =>
    intro id i
    rw [slot?_advance]
    rcases hslot : timers.slot? id i with _ | ⟨generation, state⟩
    · rfl
    rw [Option.map_some, Option.map_some, Option.some.injEq, TimerSlot.fire]
    rcases hdue : TimerSlot.due? (timers.moved elapsed) ⟨generation, state⟩ with _ | arming
    · -- Whoever is handed out is due.
      rw [if_neg]
      rintro hout
      rcases List.mem_map.mp hout with ⟨e, he, hhandle⟩
      rcases (handed e).mp he with ⟨arming, hwaits, hcome, _⟩
      rw [hhandle, hslot, Option.some.injEq, TimerSlot.mk.injEq] at hwaits
      rw [(TimerSlot.due?_eq_some_iff _ _ arming).mpr ⟨hwaits.2, hcome⟩] at hdue
      cases hdue
    · -- A slot that is due is handed out under the handle that it has now.
      rcases (TimerSlot.due?_eq_some_iff _ _ arming).mp hdue with ⟨hstate, hcome⟩
      rw [if_pos]
      refine List.mem_map.mpr ⟨⟨⟨id, i, generation⟩, arming.flow, arming.completion,
        arming.deadline⟩, (handed _).mpr ⟨arming, ?_, hcome, rfl, rfl, rfl⟩, rfl⟩
      rw [hslot]
      exact congrArg some (congrArg (TimerSlot.mk generation) hstate)
  case pools =>
    intro id
    rw [get?_advance, Option.map_map]
    congr 1
    funext pool
    simp only [Function.comp_apply, SlotPool.fire, List.length_map]

end Timers

/-- How often a timer ran out since it was armed, after something was seen of it. -/
def Deed.tally (n : Nat) : Deed → Nat
  | .armed _ => 0
  | .ranOut => n + 1
  | .released | .acknowledged => n

theorem Deed.foldl_tally_ranOut (deeds : List Deed) (n : Nat)
    (h : ∀ deed ∈ deeds, deed = .ranOut) : deeds.foldl tally n = n + deeds.length := by
  induction deeds generalizing n with
  | nil => rfl
  | cons deed deeds ih =>
      rw [List.foldl_cons, ih _ fun d hd => h d (List.mem_cons_of_mem deed hd),
        h deed List.mem_cons_self, List.length_cons, tally]
      omega

namespace Custody

/-- How often a handle ran out since it was last given out. -/
def ranOut (c : Custody) (handle : TimerId) : Nat :=
  (deedsOf handle c.history).foldl Deed.tally 0

/-- A call counts the expiries that are seen of a handle in it. -/
theorem ranOut_step (c : Custody) (call : TimerCall) (handle : TimerId) :
    (c.step call).ranOut handle
      = (deedsOf handle (call.sightings c.timers)).foldl Deed.tally (c.ranOut handle) := by
  rw [ranOut, step, deedsOf_append, List.foldl_append]
  rfl

/-- No handle ran out twice since it was given out, and what waits did not run out. -/
structure Single (c : Custody) : Prop where
  once : ∀ handle, c.ranOut handle ≤ 1
  waiting : ∀ handle flow, c.timers.watch? handle = some (.waiting flow) → c.ranOut handle = 0

namespace Single

variable {c : Custody} (h : c.Single)
include h

/-- A call under which nothing runs out and nothing begins to wait. -/
theorem quiet {call : TimerCall}
    (hcount : ∀ handle, (c.step call).ranOut handle = c.ranOut handle)
    (hwaits : ∀ handle flow, (call.timers c.timers).watch? handle = some (.waiting flow) →
      c.timers.watch? handle = some (.waiting flow)) : (c.step call).Single where
  once := fun handle => by
    rw [hcount]
    exact h.once handle
  waiting := fun handle flow hwaiting => by
    rw [hcount]
    exact h.waiting handle flow (hwaits handle flow hwaiting)

theorem arm (sound : c.timers.Sound) (setup : TimerSetup) : (c.step (.arm setup)).Single := by
  rcases c.timers.arm_cases setup sound with ⟨cause, harm⟩ | ⟨handle, timers, harm, armed⟩
  · refine h.quiet (fun other => ?_) (fun other flow hwaiting => ?_)
    · rw [ranOut_step, TimerCall.sightings, harm]
      rfl
    · rwa [TimerCall.timers, harm] at hwaiting
  -- The count of the handle that is given out starts again.
  have hcount : ∀ other, (c.step (.arm setup)).ranOut other
      = if handle = other then 0 else c.ranOut other := by
    intro other
    rw [ranOut_step, TimerCall.sightings, harm, deedsOf_singleton]
    split <;> rfl
  constructor
  case once =>
    intro other
    rw [hcount]
    split
    · exact Nat.zero_le 1
    · exact h.once other
  case waiting =>
    intro other flow hwaiting
    simp only [Custody.step, TimerCall.timers, harm, armed.watch?] at hwaiting
    rw [hcount]
    by_cases hother : handle = other
    · rw [if_pos hother]
    · rw [if_neg hother] at hwaiting ⊢
      exact h.waiting other flow hwaiting

/-- Giving a slot back lets no timer run out, and none begin to wait. -/
theorem freeing {call : TimerCall} {handle : TimerId} {deed : Deed}
    (hsightings : call.sightings c.timers = [⟨handle, deed⟩])
    (hdeed : deed = .released ∨ deed = .acknowledged)
    (htimers : call.timers c.timers = c.timers ∨
      call.timers c.timers = c.timers.release handle) : (c.step call).Single := by
  refine h.quiet (fun other => ?_) (fun other flow hwaiting => ?_)
  · rw [ranOut_step, hsightings, deedsOf_singleton]
    split
    · rcases hdeed with rfl | rfl <;> rfl
    · rfl
  · rcases htimers with hsame | hreleased
    · rwa [hsame] at hwaiting
    · rw [hreleased, c.timers.watch?_release] at hwaiting
      split at hwaiting
      · cases hwaiting
      · exact hwaiting

theorem advance (sound : c.timers.Sound) (elapsed : Nat) :
    (c.step (.advance elapsed)).Single := by
  have hcount : ∀ handle, (c.step (.advance elapsed)).ranOut handle = c.ranOut handle
      + ((c.timers.advance elapsed).1.map Expiry.handle).count handle := by
    intro handle
    -- All that is seen of moving the clock is that timers ran out.
    rw [ranOut_step, Deed.foldl_tally_ranOut]
    · simp [deedsOf, TimerCall.sightings, List.count, List.countP_eq_length_filter,
        List.filter_map, Function.comp_def, beq_eq_decide]
    · intro deed hdeed
      simp only [deedsOf, TimerCall.sightings, List.mem_map, List.mem_filter] at hdeed
      rcases hdeed with ⟨_, ⟨⟨e, _, rfl⟩, _⟩, rfl⟩
      rfl
  have honce := List.nodup_iff_count_le_one.mp (sound.fires elapsed).once
  constructor
  case once =>
    intro handle
    rw [hcount]
    by_cases hout : handle ∈ (c.timers.advance elapsed).1.map Expiry.handle
    · -- What runs out now waited until now, so it did not run out before.
      rcases List.mem_map.mp hout with ⟨e, he, rfl⟩
      rw [h.waiting e.handle e.flow (Timers.watch?_of_mem_advance sound elapsed e he).1]
      have hle := honce e.handle
      omega
    · rw [List.count_eq_zero_of_not_mem hout]
      exact h.once handle
  case waiting =>
    intro handle flow hwaiting
    rw [hcount]
    by_cases hout : handle ∈ (c.timers.advance elapsed).1.map Expiry.handle
    · -- What ran out does not wait any more.
      rcases List.mem_map.mp hout with ⟨e, he, rfl⟩
      cases (Timers.watch?_of_mem_advance sound elapsed e he).2.symm.trans hwaiting
    · rw [List.count_eq_zero_of_not_mem hout]
      rcases Timers.watch?_advance sound elapsed handle with hsame | ⟨e, he, hhandle⟩
      · exact h.waiting handle flow (hsame.symm.trans hwaiting)
      · exact absurd (List.mem_map.mpr ⟨e, he, hhandle⟩) hout

/-- Whatever is called, nothing runs out twice. -/
theorem step (sound : c.timers.Sound) (call : TimerCall) : (c.step call).Single := by
  cases call with
  | register id capacity =>
      refine h.quiet (fun _ => c.ranOut_step _ _) (fun handle flow hwaiting => ?_)
      -- In a pool of fresh slots nothing waits.
      simp only [TimerCall.timers, Timers.watch?, c.timers.owned?_register] at hwaiting
      split at hwaiting
      · cases hwaiting
      · exact hwaiting
  | arm setup => exact h.arm sound setup
  | release handle => exact h.freeing rfl (Or.inl rfl) (Or.inr rfl)
  | restart handle =>
      refine h.quiet (fun _ => c.ranOut_step _ _) (fun other flow hwaiting => ?_)
      rcases c.timers.restart_cases handle sound with
        ⟨cause, hrestart⟩ | ⟨timers, hrestart, restarted⟩
      · rwa [TimerCall.timers, hrestart] at hwaiting
      · rwa [TimerCall.timers, hrestart, restarted.watch?] at hwaiting
  | acknowledge handle =>
      refine h.freeing rfl (Or.inr rfl) ?_
      rw [TimerCall.timers, c.timers.acknowledge_eq]
      split
      · exact Or.inr rfl
      · exact Or.inl rfl
  | advance elapsed => exact h.advance sound elapsed

end Single

/-- Every handle ran out once at most since it was given out, whatever was called. -/
theorem single_run (calls : List TimerCall) : (run calls).Single := by
  induction calls using List.reverseRecOn with
  | nil =>
      constructor
      case once => exact fun _ => Nat.zero_le 1
      case waiting => exact fun _ _ _ => rfl
  | append_singleton calls call ih =>
      rw [run_concat]
      exact ih.step (sound_run calls) call

end Custody

/-- Whatever was called, moving the clock hands out what is due, in order and each but
    once, lets it fire, and changes nothing else. Moving it twice hands out and leaves
    what moving it once does. -/
theorem expiries_due (calls : List TimerCall) :
    (∀ elapsed, (Custody.run calls).timers.Fires elapsed) ∧
      (∀ handle, (Custody.run calls).ranOut handle ≤ 1) ∧
      ∀ a b, (Custody.run calls).timers.advance (a + b)
        = (((Custody.run calls).timers.advance a).1
            ++ (((Custody.run calls).timers.advance a).2.advance b).1,
          (((Custody.run calls).timers.advance a).2.advance b).2) :=
  ⟨(Custody.sound_run calls).fires, (Custody.single_run calls).once,
    (Custody.run calls).timers.advance_add⟩

/-- Three timers, of which the last two have the earlier deadline. -/
def threeDeadlines : List TimerCall := [
  .register 0 3,
  .arm { pool := 0, duration := 9, flow := 7 },
  .arm { pool := 0, duration := 5, flow := 8 },
  .arm { pool := 0, duration := 5, flow := 9 }
]

example : ((Custody.run threeDeadlines).timers.advance 9).1.map Expiry.flow = [8, 9, 7] := by
  decide +kernel

end ReceiveOffload
