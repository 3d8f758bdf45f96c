import ReceiveOffload.Proofs.Slots
import ReceiveOffload.Proofs.Table
import ReceiveOffload.Timer.Clock

/-!
# What Timers Do

A handle names one arming of a slot. What matters of it to whoever holds the
handle is whether the timer still waits, for which flow and until when, or has
fired, or is no longer theirs. `Timers.owned?` is the whole of that answer, and
each operation becomes an equation that says for every handle what the answer is
afterwards. `Timers.watch?` leaves deadlines and durations out, so that starting
a timer over is no change at all.

None of that speaks of the slots any more. A handle is its pool, its slot and its
generation, and what the pool makes of the last two is what the handle sees.

The clock moves when it is told to and by nothing else, and what is handed out
then is what was armed and is due.

## Main definitions

* `Timers.watch?`: What the timer under a handle does.
* `Timers.generation`: The generation of a slot.
* `Timers.Sound`: What is free is known to be.
* `Timers.Unspent`: A timer is to run for all of its time.
* `Timers.Armed`, `Timers.Restarted`: One more handle owns a timer, and a timer
  starts over.
* `TimerSetup.arming`: What a timer waits for that is armed at some time.

## Theorems

* `instantAfter_of_le`: Instants that the clock can show.
* `Timers.owned?_release`, `Timers.owned?_advance`: What is owned after an
  operation.
* `Timers.arm_cases`, `Timers.restart_cases`: What arming and starting over come
  to.
* `Timers.arming?_arm`, `Timers.restart_eq`: What the timer waits for then.
* `Timers.watch?_release`, `Timers.acknowledge_eq`, `Timers.watch?_advance`: The
  same without deadlines.
* `Timers.mem_advance`, `Timers.arming?_advance_cases`: What moving the clock
  hands out.
-/

namespace ReceiveOffload

/-- A handle is its pool, its slot and its generation. -/
theorem TimerId.eq_iff (a b : TimerId) :
    a = b ↔ a.pool = b.pool ∧ a.slot = b.slot ∧ a.generation = b.generation := by
  rcases a with ⟨_, _, _⟩
  rcases b with ⟨_, _, _⟩
  exact TimerId.mk.injEq _ _ _ _ _ _ ▸ Iff.rfl

/-- An instant that the clock can show is counted without starting over. -/
theorem instantAfter_of_le {instant milliseconds : Nat}
    (h : instant + milliseconds ≤ lastInstant) :
    instantAfter instant milliseconds = instant + milliseconds :=
  Nat.mod_eq_of_lt (Nat.lt_of_le_of_lt h (Nat.sub_one_lt (by decide)))

/-- The next one starts over. -/
example : instantAfter (lastInstant - 3) 10 = 6 := by
  decide

/-- What a timer waits for that is armed at the given time. -/
def TimerSetup.arming (setup : TimerSetup) (now : Nat) : Arming where
  deadline := instantAfter now setup.milliseconds
  duration := setup.milliseconds
  flow := setup.flow
  completion := setup.completion

theorem Expiry.mem_insertByDeadline (expiry e : Expiry) (rest : List Expiry) :
    e ∈ expiry.insertByDeadline rest ↔ e = expiry ∨ e ∈ rest := by
  induction rest with
  | nil => rw [insertByDeadline, List.mem_singleton, List.mem_nil_iff, or_false]
  | cons other rest ih =>
      rw [insertByDeadline]
      split
      · rw [List.mem_cons]
      · rw [List.mem_cons, ih, List.mem_cons]
        exact or_left_comm

/-- Sorting expiries loses none and makes none up. -/
theorem Expiry.mem_sortByDeadline (e : Expiry) (expiries : List Expiry) :
    e ∈ sortByDeadline expiries ↔ e ∈ expiries := by
  induction expiries with
  | nil => rfl
  | cons expiry rest ih => rw [sortByDeadline, mem_insertByDeadline, ih, List.mem_cons]

namespace Timers

/-- What the timer under a handle does. -/
def watch? (timers : Timers) (handle : TimerId) : Option Watch :=
  (timers.owned? handle).bind fun slot => slot.state.watch?

/-- The generation of a slot: how often it was released, as far as a word can
    say. -/
def generation (timers : Timers) (pool slot : Nat) : UInt32 :=
  match timers.pools.get? pool with
  | some pool => pool.generation slot
  | none => 0

/-- No identifier has two pools, and every pool is sound. -/
structure Sound (timers : Timers) : Prop where
  distinct : timers.pools.Distinct
  pools : ∀ id pool, timers.pools.get? id = some pool → pool.Sound

theorem owned?_of_get? (timers : Timers) (handle : TimerId) (pool : SlotPool)
    (h : timers.pools.get? handle.pool = some pool) :
    timers.owned? handle = pool.owned? handle.slot handle.generation := by
  rw [owned?, h]

theorem owned?_of_get?_none (timers : Timers) (handle : TimerId)
    (h : timers.pools.get? handle.pool = none) : timers.owned? handle = none := by
  rw [owned?, h]

/-- What is owned does something. -/
theorem watch?_eq_none_iff (timers : Timers) (handle : TimerId) :
    timers.watch? handle = none ↔ timers.owned? handle = none := by
  rcases hget : timers.pools.get? handle.pool with _ | pool
  · simp only [watch?, timers.owned?_of_get?_none handle hget, Option.bind_none]
  · rw [watch?, timers.owned?_of_get? handle pool hget]
    exact pool.watch?_eq_none_iff handle.slot handle.generation

theorem arming?_eq_some_iff (timers : Timers) (handle : TimerId) (arming : Arming) :
    timers.arming? handle = some arming ↔
      ∃ generation, timers.owned? handle = some ⟨generation, .armed arming⟩ := by
  unfold arming?
  rcases timers.owned? handle with _ | ⟨generation, _ | found | _⟩ <;> simp

/-- What a handle was armed with is a question of its slot alone. -/
theorem arming?_congr {timers timers' : Timers} {handle : TimerId}
    (h : timers'.owned? handle = timers.owned? handle) :
    timers'.arming? handle = timers.arming? handle := by
  unfold arming?
  rw [h]

theorem watch?_congr {timers timers' : Timers} {handle : TimerId}
    (h : timers'.owned? handle = timers.owned? handle) :
    timers'.watch? handle = timers.watch? handle := by
  unfold watch?
  rw [h]

/-- A timer waits if it is armed, for the flow that it was armed for. -/
theorem watch?_eq_waiting_iff (timers : Timers) (handle : TimerId) (flow : UInt64) :
    timers.watch? handle = some (.waiting flow) ↔
      ∃ arming, timers.arming? handle = some arming ∧ arming.flow = flow := by
  unfold watch? arming?
  rcases timers.owned? handle with _ | ⟨generation, _ | arming | _⟩ <;> simp [Occupancy.watch?]

theorem watch?_of_arming? (timers : Timers) (handle : TimerId) (arming : Arming)
    (h : timers.arming? handle = some arming) :
    timers.watch? handle = some (.waiting arming.flow) :=
  (timers.watch?_eq_waiting_iff handle arming.flow).mpr ⟨arming, h, rfl⟩

theorem watch?_of_get? (timers : Timers) (handle : TimerId) (pool : SlotPool)
    (h : timers.pools.get? handle.pool = some pool) :
    timers.watch? handle = pool.watch? handle.slot handle.generation := by
  rw [watch?, owned?, h]
  rfl

theorem watch?_of_get?_none (timers : Timers) (handle : TimerId)
    (h : timers.pools.get? handle.pool = none) : timers.watch? handle = none := by
  rw [watch?, owned?, h]
  rfl

/-- A handle that is owned has the generation of its slot. -/
theorem generation_of_watch? (timers : Timers) (handle : TimerId)
    (h : timers.watch? handle ≠ none) :
    timers.generation handle.pool handle.slot = handle.generation := by
  rcases hget : timers.pools.get? handle.pool with _ | pool
  · exact absurd (timers.watch?_of_get?_none handle hget) h
  · rw [timers.watch?_of_get? handle pool hget] at h
    rcases pool.slot_of_watch? handle.slot handle.generation h with ⟨slot, hslot, hg, _⟩
    rw [generation, hget]
    simp only [SlotPool.generation, hslot, Option.map_some, Option.getD_some, hg]

/-- A slot has one owner. -/
theorem eq_of_watch? (timers : Timers) {handle other : TimerId}
    (h : timers.watch? handle ≠ none) (h' : timers.watch? other ≠ none)
    (hpool : handle.pool = other.pool) (hslot : handle.slot = other.slot) : handle = other := by
  refine (TimerId.eq_iff handle other).mpr ⟨hpool, hslot, ?_⟩
  rw [← timers.generation_of_watch? handle h, ← timers.generation_of_watch? other h', hpool, hslot]

/-- A handle that is older than its slot owns nothing. -/
theorem watch?_of_older (timers : Timers) (handle : TimerId) (n m : Nat)
    (hhandle : handle.generation = UInt32.ofNat n)
    (hslot : timers.generation handle.pool handle.slot = UInt32.ofNat m) (hlt : n < m)
    (hfew : m < 2 ^ 32) : timers.watch? handle = none := by
  by_contra hwatch
  rw [timers.generation_of_watch? handle hwatch, hhandle] at hslot
  -- Both counts fit a word, so equal generations would be equal counts.
  have hsame := congrArg UInt32.toNat hslot
  rw [UInt32.toNat_ofNat_of_lt' (by simp only [UInt32.size]; omega),
    UInt32.toNat_ofNat_of_lt' hfew] at hsame
  omega

/-- The timers with another pool in the place of one that is there. -/
def setPool (timers : Timers) (id : Nat) (pool : SlotPool) : Timers :=
  { timers with pools := timers.pools.insert id pool }

/-- Who owns a slot of a pool is decided by the pool that was put there last. -/
theorem owned?_setPool (timers : Timers) (id : Nat) (pool : SlotPool) (handle : TimerId) :
    (timers.setPool id pool).owned? handle = if id = handle.pool
      then pool.owned? handle.slot handle.generation else timers.owned? handle := by
  unfold owned? setPool
  rw [Table.get?_insert]
  by_cases hid : id = handle.pool
  · rw [if_pos hid, if_pos hid]
  · rw [if_neg hid, if_neg hid]

/-- What one arming owns in a pool is what one handle owns. -/
theorem owned?_setPool_of_get? (timers : Timers) (handle : TimerId) {pool pool' : SlotPool}
    {slot? : Option TimerSlot} (hget : timers.pools.get? handle.pool = some pool)
    (howned : ∀ j k, pool'.owned? j k
      = if handle.slot = j ∧ handle.generation = k then slot? else pool.owned? j k)
    (other : TimerId) : (timers.setPool handle.pool pool').owned? other
      = if handle = other then slot? else timers.owned? other := by
  rw [owned?_setPool]
  by_cases hid : handle.pool = other.pool
  · rw [if_pos hid, howned, timers.owned?_of_get? other pool (hid ▸ hget)]
    simp only [TimerId.eq_iff, hid, true_and]
  · rw [if_neg hid, if_neg (fun hh => hid (congrArg TimerId.pool hh))]

theorem generation_setPool (timers : Timers) (id : Nat) (pool : SlotPool) (j slot : Nat) :
    (timers.setPool id pool).generation j slot
      = if id = j then pool.generation slot else timers.generation j slot := by
  unfold generation setPool
  rw [Table.get?_insert]
  by_cases hid : id = j
  · rw [if_pos hid, if_pos hid]
  · rw [if_neg hid, if_neg hid]

theorem Sound.setPool {timers : Timers} (h : timers.Sound) (id : Nat) (pool : SlotPool)
    (hpool : pool.Sound) : (timers.setPool id pool).Sound where
  distinct := h.distinct.insert id pool
  pools := by
    intro j pool' hget
    rw [Timers.setPool, Table.get?_insert] at hget
    by_cases hid : id = j
    · rw [if_pos hid, Option.some.injEq] at hget
      exact hget ▸ hpool
    · rw [if_neg hid] at hget
      exact h.pools j pool' hget

/-- Pools are registered one after another, and what registering keeps holds in
    the end. -/
@[elab_as_elim]
theorem ofPools_induction {p : Timers → Prop} (pools : List (Nat × Nat)) (empty : p {})
    (register : ∀ (timers : Timers) (id capacity : Nat), p timers →
      p (timers.register id capacity)) :
    p (ofPools pools) := by
  suffices hfold : ∀ timers : Timers, p timers →
      p (pools.foldl (fun timers entry => timers.register entry.1 entry.2) timers) from
    hfold {} empty
  induction pools with
  | nil => exact fun _ h => h
  | cons entry pools ih =>
      exact fun timers h => ih (timers.register entry.1 entry.2)
        (register timers entry.1 entry.2 h)

/-- Pools are registered sound, with slots of which none was ever used. -/
theorem sound_ofPools (pools : List (Nat × Nat)) :
    (ofPools pools).Sound ∧ ∀ id pool, (ofPools pools).pools.get? id = some pool →
      pool.slots = [] := by
  refine ofPools_induction pools
    ⟨⟨List.nodup_nil, fun _ _ h => by cases h⟩, fun _ _ h => by cases h⟩ ?_
  rintro timers key capacity ⟨hsound, hfresh⟩
  refine ⟨hsound.setPool key { capacity } ⟨List.nodup_nil, by simp⟩, fun id pool hget => ?_⟩
  simp only [register, Table.get?_insert] at hget
  by_cases hid : key = id
  · rw [if_pos hid, Option.some.injEq] at hget
    rw [← hget]
  · rw [if_neg hid] at hget
    exact hfresh id pool hget

/-- The clock starts at nought. -/
theorem now_ofPools (pools : List (Nat × Nat)) : (ofPools pools).now = 0 :=
  ofPools_induction pools rfl (fun _ _ _ h => h)

theorem generation_ofPools (pools : List (Nat × Nat)) (pool slot : Nat) :
    (ofPools pools).generation pool slot = 0 := by
  unfold generation
  rcases h : (ofPools pools).pools.get? pool with _ | found
  · rfl
  · simp only [SlotPool.generation, (sound_ofPools pools).2 pool found h, List.getElem?_nil,
      Option.map_none, Option.getD_none]

theorem watch?_ofPools (pools : List (Nat × Nat)) (handle : TimerId) :
    (ofPools pools).watch? handle = none := by
  rcases h : (ofPools pools).pools.get? handle.pool with _ | found
  · exact watch?_of_get?_none _ handle h
  · rw [watch?_of_get? _ handle found h, SlotPool.watch?_eq,
      (sound_ofPools pools).2 handle.pool found h, List.getElem?_nil, Option.bind_none]

/-- Releasing takes the timer from the handle and from no other. -/
theorem owned?_release (timers : Timers) (handle h : TimerId) :
    (timers.release handle).owned? h = if handle = h then none else timers.owned? h := by
  unfold release
  rcases hget : timers.pools.get? handle.pool with _ | pool
  · by_cases hh : handle = h
    · rw [if_pos hh, ← hh, timers.owned?_of_get?_none handle hget]
    · rw [if_neg hh]
  · exact timers.owned?_setPool_of_get? handle hget
      (fun j k => pool.owned?_release handle.slot j handle.generation k) h

/-- Nothing waits under a handle that was released. -/
theorem watch?_release (timers : Timers) (handle h : TimerId) :
    (timers.release handle).watch? h = if handle = h then none else timers.watch? h := by
  rw [watch?, owned?_release]
  split <;> rfl

theorem now_release (timers : Timers) (handle : TimerId) :
    (timers.release handle).now = timers.now := by
  unfold release
  split <;> rfl

/-- A release by the owner raises the generation of the slot. -/
theorem generation_release (timers : Timers) (handle : TimerId) (pool slot : Nat) :
    (timers.release handle).generation pool slot = timers.generation pool slot
      + if handle.pool = pool ∧ handle.slot = slot ∧ timers.watch? handle ≠ none
        then 1 else 0 := by
  unfold release
  rcases hget : timers.pools.get? handle.pool with _ | found
  · rw [if_neg (fun hall => hall.2.2 (timers.watch?_of_get?_none handle hget))]
    exact (UInt32.add_zero _).symm
  · refine Eq.trans (timers.generation_setPool handle.pool _ pool slot) ?_
    rw [SlotPool.generation_release, ← timers.watch?_of_get? handle found hget]
    by_cases hpool : handle.pool = pool
    · have hold : timers.generation pool slot = found.generation slot := by
        rw [← hpool, generation, hget]
      rw [if_pos hpool, hold]
      simp only [hpool, true_and]
    · rw [if_neg hpool, if_neg (fun hall => hpool hall.1)]
      exact (UInt32.add_zero _).symm

theorem Sound.release {timers : Timers} (h : timers.Sound) (handle : TimerId) :
    (timers.release handle).Sound := by
  unfold Timers.release
  rcases hget : timers.pools.get? handle.pool with _ | pool
  · exact h
  · exact h.setPool handle.pool _ ((h.pools handle.pool pool hget).release _ _)

/-- Acknowledging releases what has fired, and leaves alone what still waits. -/
theorem acknowledge_eq (timers : Timers) (handle : TimerId) :
    timers.acknowledge handle
      = if timers.watch? handle = some .fired then timers.release handle else timers := by
  unfold acknowledge watch?
  rcases timers.owned? handle with _ | ⟨generation, _ | arming | _⟩ <;>
    simp [Occupancy.watch?]

/-- The timer is to run for all of its time from now. -/
def Unspent (timers : Timers) (handle : TimerId) : Prop :=
  ∃ arming, timers.arming? handle = some arming ∧
    arming.deadline = instantAfter timers.now arming.duration

theorem unspent_of_owned? {timers : Timers} {handle : TimerId} {generation : UInt32}
    {arming : Arming} (h : timers.owned? handle = some ⟨generation, .armed arming⟩)
    (hdeadline : arming.deadline = instantAfter timers.now arming.duration) :
    timers.Unspent handle :=
  ⟨arming, (timers.arming?_eq_some_iff handle arming).mpr ⟨generation, h⟩, hdeadline⟩

/-- One more handle owns a timer, and that is all that has changed. -/
structure Armed (timers : Timers) (flow : UInt64) (handle : TimerId) (timers' : Timers) :
    Prop where
  sound : timers'.Sound
  now : timers'.now = timers.now
  unowned : timers.watch? handle = none
  unspent : timers'.Unspent handle
  watch? : ∀ h, timers'.watch? h
    = if handle = h then some (.waiting flow) else timers.watch? h
  owned? : ∀ h, handle ≠ h → timers'.owned? h = timers.owned? h
  generation : ∀ pool slot, timers'.generation pool slot = timers.generation pool slot

/-- A timer starts over, and that is all that has changed. Without deadlines it
    is no change. -/
structure Restarted (timers : Timers) (handle : TimerId) (timers' : Timers) : Prop where
  sound : timers'.Sound
  now : timers'.now = timers.now
  unspent : timers'.Unspent handle
  watch? : ∀ h, timers'.watch? h = timers.watch? h
  owned? : ∀ h, handle ≠ h → timers'.owned? h = timers.owned? h
  generation : ∀ pool slot, timers'.generation pool slot = timers.generation pool slot

/-- What arming comes to if the pool is there. -/
theorem arm_eq (timers : Timers) (setup : TimerSetup) (pool : SlotPool)
    (h : timers.pools.get? setup.pool = some pool) :
    timers.arm setup = match pool.arm (setup.arming timers.now) with
      | none => (.error (.timersExhausted setup.pool), timers)
      | some (i, g, pool') => (.ok ⟨setup.pool, i, g⟩, timers.setPool setup.pool pool') := by
  unfold arm
  rw [h]
  rfl

/-- Arming fails and changes nothing, or gives a handle that nobody had. -/
theorem arm_cases (timers : Timers) (setup : TimerSetup) (h : timers.Sound) :
    (∃ cause, timers.arm setup = (.error cause, timers)) ∨
      ∃ handle timers', timers.arm setup = (.ok handle, timers') ∧
        timers.Armed setup.flow handle timers' := by
  rcases hget : timers.pools.get? setup.pool with _ | pool
  · refine Or.inl ⟨.unknownTimerPool setup.pool, ?_⟩
    unfold arm
    rw [hget]
  rcases pool.arm_cases (setup.arming timers.now) (h.pools setup.pool pool hget) with
    harm | ⟨i, g, pool', harm, armed⟩
  · exact Or.inl ⟨_, by rw [timers.arm_eq setup pool hget, harm]⟩
  -- The pool was found, and what its slots do is what handles in it see.
  have hresult : timers.arm setup = (.ok ⟨setup.pool, i, g⟩, timers.setPool setup.pool pool') := by
    rw [timers.arm_eq setup pool hget, harm]
  have howned := timers.owned?_setPool_of_get? ⟨setup.pool, i, g⟩ hget armed.owned?
  refine Or.inr ⟨_, _, hresult, ?_⟩
  constructor
  case sound => exact h.setPool setup.pool pool' armed.sound
  case now => rfl
  case unowned => rw [timers.watch?_of_get? ⟨setup.pool, i, g⟩ pool hget, armed.unowned]
  case unspent =>
    exact unspent_of_owned? ((howned _).trans (if_pos rfl)) rfl
  case watch? =>
    intro other
    rw [watch?, howned]
    split <;> rfl
  case owned? =>
    intro other hother
    rw [howned, if_neg hother]
  case generation =>
    intro j slot
    rw [generation_setPool]
    by_cases hid : setup.pool = j
    · rw [if_pos hid, armed.generation, generation, ← hid, hget]
    · rw [if_neg hid]

/-- A timer that is armed starts over when its slot is written back with another
    deadline. -/
theorem restarted_setPool (timers : Timers) (handle : TimerId) (h : timers.Sound)
    (pool : SlotPool) (arming : Arming) (hget : timers.pools.get? handle.pool = some pool)
    (hslot : pool.owned? handle.slot handle.generation
      = some ⟨handle.generation, .armed arming⟩) :
    timers.Restarted handle (timers.setPool handle.pool (pool.setSlot handle.slot
      ⟨handle.generation,
        .armed { arming with deadline := instantAfter timers.now arming.duration }⟩)) := by
  -- The slot keeps its generation, so what changes is seen under this handle alone.
  have howned := timers.owned?_setPool_of_get? handle hget (fun j k =>
    pool.owned?_setSlot_of_owned handle.slot j handle.generation k _
      { arming with deadline := instantAfter timers.now arming.duration } hslot)
  have hfound := ((pool.owned?_eq_some_iff _ _ _).mp hslot).1
  constructor
  case sound =>
    refine h.setPool _ _ ((h.pools _ pool hget).setSlot _ _ _ hfound ?_)
    simp only [reduceCtorEq]
  case now => rfl
  case unspent => exact unspent_of_owned? ((howned handle).trans (if_pos rfl)) rfl
  case watch? =>
    intro other
    rw [watch?, howned, watch?]
    by_cases hh : handle = other
    · -- It waits for the same flow as before.
      rw [if_pos hh, ← hh, (timers.owned?_of_get? handle pool hget).trans hslot]
      rfl
    · rw [if_neg hh]
  case owned? =>
    intro other hother
    rw [howned, if_neg hother]
  case generation =>
    intro j i
    rw [generation_setPool, pool.generation_setSlot_of_owned _ _ _ _ _ hslot]
    by_cases hid : handle.pool = j
    · rw [if_pos hid, generation, ← hid, hget]
    · rw [if_neg hid]

/-- A timer is started over, or nothing has changed. -/
theorem restart_cases (timers : Timers) (handle : TimerId) (h : timers.Sound) :
    (∃ cause, timers.restart handle = (.error cause, timers)) ∨
      ∃ timers', timers.restart handle = (.ok (), timers') ∧ timers.Restarted handle timers' := by
  unfold restart
  rcases hget : timers.pools.get? handle.pool with _ | pool
  · exact Or.inl ⟨_, rfl⟩
  simp only
  rcases howned : pool.owned? handle.slot handle.generation with _ | ⟨generation, _ | arming | _⟩
  · exact Or.inl ⟨_, rfl⟩
  · exact Or.inl ⟨_, rfl⟩
  case some.armed =>
    have hgeneration : generation = handle.generation :=
      ((pool.owned?_eq_some_iff _ _ _).mp howned).2.1
    subst hgeneration
    exact Or.inr ⟨_, rfl, timers.restarted_setPool handle h pool arming hget howned⟩
  · exact Or.inl ⟨_, rfl⟩

/-- A timer that is taken waits for what was asked. -/
theorem arming?_arm {timers timers' : Timers} {setup : TimerSetup} {handle : TimerId}
    (sound : timers.Sound) (h : timers.arm setup = (.ok handle, timers')) :
    timers'.arming? handle = some (setup.arming timers.now) := by
  rcases hget : timers.pools.get? setup.pool with _ | pool
  · unfold arm at h
    rw [hget] at h
    cases h
  rw [timers.arm_eq setup pool hget] at h
  rcases pool.arm_cases (setup.arming timers.now) (sound.pools setup.pool pool hget) with
    harm | ⟨i, g, pool', harm, armed⟩
  all_goals
    rw [harm] at h
    cases h
  have howned := timers.owned?_setPool_of_get? ⟨setup.pool, i, g⟩ hget armed.owned?
  exact (arming?_eq_some_iff _ _ _).mpr ⟨g, (howned _).trans (if_pos rfl)⟩

/-- A timer that waits is started over with all of its time, and a timer that does
    not is left alone. -/
theorem restart_eq (timers : Timers) (handle : TimerId) :
    (∃ cause, timers.arming? handle = none ∧ timers.restart handle = (.error cause, timers)) ∨
      ∃ arming timers', timers.arming? handle = some arming ∧
        timers.restart handle = (.ok (), timers') ∧
        timers'.arming? handle
          = some { arming with deadline := instantAfter timers.now arming.duration } := by
  unfold restart arming?
  rcases hget : timers.pools.get? handle.pool with _ | pool
  · rw [timers.owned?_of_get?_none handle hget]
    exact Or.inl ⟨_, rfl, rfl⟩
  rw [timers.owned?_of_get? handle pool hget]
  simp only
  rcases howned : pool.owned? handle.slot handle.generation with _ | ⟨generation, _ | arming | _⟩
  -- A timer can be started over while it waits and at no other time.
  case some.armed =>
    have hgeneration : generation = handle.generation :=
      ((pool.owned?_eq_some_iff _ _ _).mp howned).2.1
    subst hgeneration
    refine Or.inr ⟨arming, _, rfl, rfl, ?_⟩
    have hset := timers.owned?_setPool_of_get? handle hget (fun j k =>
      pool.owned?_setSlot_of_owned handle.slot j handle.generation k _
        { arming with deadline := instantAfter timers.now arming.duration } howned) handle
    rw [if_pos rfl] at hset
    exact (arming?_eq_some_iff _ handle _).mpr ⟨_, hset⟩
  all_goals exact Or.inl ⟨_, rfl, rfl⟩

theorem now_acknowledge (timers : Timers) (handle : TimerId) :
    (timers.acknowledge handle).now = timers.now := by
  rw [acknowledge_eq]
  split
  · exact timers.now_release handle
  · rfl

theorem Sound.acknowledge {timers : Timers} (h : timers.Sound) (handle : TimerId) :
    (timers.acknowledge handle).Sound := by
  rw [acknowledge_eq]
  split
  · exact h.release handle
  · exact h

/-- A timer that waits has nothing to acknowledge. -/
theorem arming?_acknowledge {timers : Timers} {handle : TimerId} {arming : Arming}
    (h : timers.arming? handle = some arming) (other : TimerId) :
    (timers.acknowledge other).arming? handle = some arming := by
  rw [acknowledge_eq]
  by_cases hfired : timers.watch? other = some .fired
  · have hother : other ≠ handle := by
      rintro rfl
      rw [timers.watch?_of_arming? other arming h] at hfired
      cases hfired
    have howned := timers.owned?_release other handle
    rw [if_neg hother] at howned
    rw [if_pos hfired]
    exact (arming?_congr howned).trans h
  · rw [if_neg hfired, h]

section Advance

variable (timers : Timers) (elapsed : Nat)

/-- Where the clock stands after it was moved. -/
def moved : Nat :=
  min (timers.now + elapsed) lastInstant

theorem get?_advance (id : Nat) :
    (timers.advance elapsed).2.pools.get? id
      = (timers.pools.get? id).map fun pool => pool.fire (timers.moved elapsed) :=
  Table.get?_mapValues _ timers.pools id

theorem Sound.advance {timers : Timers} (h : timers.Sound) (elapsed : Nat) :
    (timers.advance elapsed).2.Sound where
  distinct := h.distinct.mapValues _
  pools := by
    intro id pool hget
    rw [get?_advance, Option.map_eq_some_iff] at hget
    rcases hget with ⟨before, hbefore, rfl⟩
    exact (h.pools id before hbefore).fire _

theorem generation_advance (pool slot : Nat) :
    (timers.advance elapsed).2.generation pool slot = timers.generation pool slot := by
  unfold generation
  rw [get?_advance]
  rcases timers.pools.get? pool with _ | found
  · rfl
  · simp only [Option.map_some, SlotPool.generation, SlotPool.getElem?_fire, Option.map_map,
      Function.comp_def, TimerSlot.generation_fire]

/-- Whoever owns a timer owns it after the clock was moved. It fires if it is
    due. -/
theorem owned?_advance (handle : TimerId) :
    (timers.advance elapsed).2.owned? handle
      = (timers.owned? handle).map (TimerSlot.fire (timers.moved elapsed)) := by
  unfold owned?
  rw [get?_advance]
  rcases timers.pools.get? handle.pool with _ | pool
  · rfl
  · exact pool.owned?_fire _ handle.slot handle.generation

/-- What is handed out are the timers that are due. -/
theorem mem_advance {timers : Timers} (h : timers.Sound) (elapsed : Nat) (e : Expiry) :
    e ∈ (timers.advance elapsed).1 ↔
      ∃ slot arming, timers.owned? e.handle = some slot ∧
        slot.due? (timers.moved elapsed) = some arming ∧ arming.flow = e.flow ∧
        arming.completion = e.completion ∧ arming.deadline = e.deadline := by
  simp only [advance, Expiry.mem_sortByDeadline, List.mem_flatMap, SlotPool.expiries,
    List.mem_filterMap, Option.map_eq_some_iff, Prod.exists, List.mem_zipIdx_iff_getElem?]
  constructor
  · rintro ⟨id, pool, hpool, slot, i, hslot, arming, hdue, rfl⟩
    have hget := (h.distinct.mem_iff id pool).mp hpool
    refine ⟨slot, arming, ?_, hdue, rfl, rfl, rfl⟩
    rw [timers.owned?_of_get? _ pool hget, SlotPool.owned?_eq_some_iff]
    -- A slot that is due is armed, so it is not free.
    refine ⟨hslot, rfl, ?_⟩
    rw [Ne, ← Occupancy.watch?_eq_none_iff, slot.watch?_of_due? _ arming hdue]
    exact Option.some_ne_none _
  · rintro ⟨slot, arming, howned, hdue, hflow, hcompletion, hdeadline⟩
    rcases hget : timers.pools.get? e.handle.pool with _ | pool
    · rw [timers.owned?_of_get?_none e.handle hget] at howned
      cases howned
    rw [timers.owned?_of_get? e.handle pool hget, SlotPool.owned?_eq_some_iff] at howned
    refine ⟨e.handle.pool, pool, (h.distinct.mem_iff _ pool).mpr hget, slot, e.handle.slot,
      howned.1, arming, hdue, ?_⟩
    rw [howned.2.1, hflow, hcompletion, hdeadline]

/-- What is handed out is what the timer was armed with, and it is not early. -/
theorem arming?_of_mem_advance {timers : Timers} (h : timers.Sound) (elapsed : Nat) (e : Expiry)
    (he : e ∈ (timers.advance elapsed).1) :
    ∃ arming, timers.arming? e.handle = some arming ∧ arming.deadline ≤ timers.moved elapsed ∧
      arming.flow = e.flow ∧ arming.completion = e.completion ∧ arming.deadline = e.deadline := by
  rcases (mem_advance h elapsed e).mp he with ⟨slot, arming, howned, hdue, hsame⟩
  rcases (slot.due?_eq_some_iff _ arming).mp hdue with ⟨hstate, hdeadline⟩
  refine ⟨arming, (timers.arming?_eq_some_iff e.handle arming).mpr ⟨slot.generation, ?_⟩, hdeadline,
    hsame⟩
  rw [howned, ← hstate]

/-- Whoever is handed out had waited and has fired. -/
theorem watch?_of_mem_advance {timers : Timers} (h : timers.Sound) (elapsed : Nat) (e : Expiry)
    (he : e ∈ (timers.advance elapsed).1) :
    timers.watch? e.handle = some (.waiting e.flow) ∧
      (timers.advance elapsed).2.watch? e.handle = some .fired := by
  rcases (mem_advance h elapsed e).mp he with ⟨slot, arming, howned, hdue, hflow, _⟩
  constructor
  · rw [watch?, howned, Option.bind_some, slot.watch?_of_due? _ arming hdue, hflow]
  · rw [watch?, owned?_advance, howned, Option.map_some, Option.bind_some, slot.watch?_fire, hdue]

/-- Moving the clock changes what is handed out and nothing else. -/
theorem owned?_advance_cases {timers : Timers} (h : timers.Sound) (elapsed : Nat)
    (handle : TimerId) :
    (timers.advance elapsed).2.owned? handle = timers.owned? handle ∨
      ∃ e ∈ (timers.advance elapsed).1, e.handle = handle := by
  rw [owned?_advance]
  rcases howned : timers.owned? handle with _ | slot
  · exact Or.inl rfl
  rcases hdue : slot.due? (timers.moved elapsed) with _ | arming
  · refine Or.inl ?_
    rw [Option.map_some, TimerSlot.fire, hdue]
  · exact Or.inr ⟨⟨handle, arming.flow, arming.completion, arming.deadline⟩,
      (mem_advance h elapsed _).mpr ⟨slot, arming, howned, hdue, rfl, rfl, rfl⟩, rfl⟩

/-- A timer that waits runs on until its deadline, and then it is handed out. -/
theorem arming?_advance_cases {timers : Timers} (h : timers.Sound) (elapsed : Nat)
    {handle : TimerId} {arming : Arming} (harming : timers.arming? handle = some arming) :
    (timers.moved elapsed < arming.deadline ∧
      (timers.advance elapsed).2.arming? handle = some arming) ∨
    ⟨handle, arming.flow, arming.completion, arming.deadline⟩ ∈ (timers.advance elapsed).1 := by
  rcases (timers.arming?_eq_some_iff handle arming).mp harming with ⟨generation, howned⟩
  by_cases hdue : arming.deadline ≤ timers.moved elapsed
  · exact Or.inr ((mem_advance h elapsed _).mpr ⟨_, arming, howned,
      (TimerSlot.due?_eq_some_iff _ _ arming).mpr ⟨rfl, hdue⟩, rfl, rfl, rfl⟩)
  · refine Or.inl ⟨Nat.lt_of_not_le hdue, ?_⟩
    have hruns : TimerSlot.due? (timers.moved elapsed) ⟨generation, .armed arming⟩ = none :=
      if_neg hdue
    rw [arming?_eq_some_iff, owned?_advance, howned, Option.map_some, TimerSlot.fire, hruns]
    exact ⟨generation, rfl⟩

theorem watch?_advance {timers : Timers} (h : timers.Sound) (elapsed : Nat) (handle : TimerId) :
    (timers.advance elapsed).2.watch? handle = timers.watch? handle ∨
      ∃ e ∈ (timers.advance elapsed).1, e.handle = handle := by
  rcases owned?_advance_cases h elapsed handle with hsame | hout
  · exact Or.inl (by rw [watch?, hsame, watch?])
  · exact Or.inr hout

end Advance

end Timers

end ReceiveOffload
