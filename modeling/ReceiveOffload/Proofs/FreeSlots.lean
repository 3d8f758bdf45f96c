import Mathlib.Data.List.Perm.Subperm
import ReceiveOffload.Proofs.Slots

/-!
# Which Slots Are Free

A pool records a slot once it is taken, and lists those of them that are free
again. All the others of its capacity are free as well, lowest first. Put behind
the released ones they make the list that slots are taken from: arming takes the
slot in front of it, and releasing puts one there.

In a pool that is sound the list has every free slot once and no other, so what
is counted as taken is the slots that are armed or have fired, and arming fails
when there are no others.

## Main definitions

* `SlotPool.state`: In what state a slot is.
* `SlotPool.free`: The slots that are free, in the order in which they are taken.
* `SlotPool.Fits`: A pool has no more slots than its capacity.
* `SlotPool.Follows`: The same pool, later.

## Theorems

* `SlotPool.free_arm`, `SlotPool.free_release`: The list is a stack.
* `SlotPool.mem_free_iff`, `SlotPool.nodup_free`: It has every free slot, once.
* `SlotPool.taken_eq`: What is taken is what is not free.
* `SlotPool.arm_eq_none_iff`: Arming fails if every slot is taken.
-/

namespace ReceiveOffload

namespace SlotPool

/-- In what state a slot is. One that was never taken is free. -/
def state (pool : SlotPool) (i : Nat) : Occupancy :=
  (pool.slots[i]?.map TimerSlot.state).getD .free

/-- The slots that are free, the next one to be taken in front. -/
def free (pool : SlotPool) : List Nat :=
  pool.released ++ List.range' pool.slots.length (pool.capacity - pool.slots.length)

/-- No slot beyond the capacity was ever taken. -/
def Fits (pool : SlotPool) : Prop :=
  pool.slots.length ≤ pool.capacity

/-- Arming takes the slot in front of the list. -/
theorem free_arm {pool pool' : SlotPool} {arming : Arming} {i : Nat} {g : UInt32}
    (h : pool.arm arming = some (i, g, pool')) : pool.free = i :: pool'.free := by
  unfold arm at h
  rcases hreleased : pool.released with _ | ⟨index, released⟩ <;> rw [hreleased] at h
  · -- None was released, so the lowest that was never taken is next.
    simp only [Option.ite_none_right_eq_some, Option.some.injEq, Prod.mk.injEq] at h
    rcases h with ⟨hroom, rfl, _, rfl⟩
    have hsucc : pool.capacity - pool.slots.length
        = pool.capacity - (pool.slots.length + 1) + 1 := by omega
    simp only [free, hreleased, List.nil_append, List.length_append, List.length_singleton]
    rw [hsucc, List.range'_succ]
  · rcases hslot : pool.slots[index]? with _ | slot <;> simp only [hslot, reduceCtorEq] at h
    simp only [Option.some.injEq, Prod.mk.injEq] at h
    rcases h with ⟨rfl, _, rfl⟩
    simp only [free, hreleased, List.length_set, List.cons_append]

/-- Releasing puts the slot in front of the list, if it was the owner who did it. -/
theorem free_release (pool : SlotPool) (i : Nat) (g : UInt32) (h : pool.owned? i g ≠ none) :
    (pool.release i g).free = i :: pool.free := by
  rcases Option.ne_none_iff_exists'.mp h with ⟨slot, howned⟩
  simp only [release, howned, free, List.length_set, List.cons_append]

section Sound

variable {pool : SlotPool} (h : pool.Sound)
include h

/-- Arming fails where no slot is left. -/
theorem arm_eq_none_iff_free (arming : Arming) : pool.arm arming = none ↔ pool.free = [] := by
  unfold arm free
  rcases hreleased : pool.released with _ | ⟨index, released⟩
  · rw [ite_eq_right_iff, List.nil_append, List.range'_eq_nil_iff]
    simp only [reduceCtorEq, imp_false]
    omega
  · -- What was released is there.
    rcases (h.mem_released index).mp (hreleased ▸ List.mem_cons_self) with ⟨slot, hslot, _⟩
    simp only [hslot, reduceCtorEq, List.cons_append]

theorem lt_length_of_mem_released {i : Nat} (hi : i ∈ pool.released) : i < pool.slots.length := by
  rcases (h.mem_released i).mp hi with ⟨slot, hslot, _⟩
  exact (List.getElem?_eq_some_iff.mp hslot).1

/-- No slot is in the list twice. -/
theorem nodup_free : pool.free.Nodup := by
  refine List.nodup_append.mpr ⟨h.nodup, List.nodup_range', fun i hi j hj => ?_⟩
  have hlt := lt_length_of_mem_released h hi
  rw [List.mem_range'_1] at hj
  omega

/-- Every slot is in the list or taken. -/
theorem length_free_add_taken (fits : pool.Fits) :
    pool.free.length + pool.taken = pool.capacity := by
  have hle : pool.released.length ≤ pool.slots.length := by
    have hsub : pool.released ⊆ List.range pool.slots.length :=
      fun i hi => List.mem_range.mpr (lt_length_of_mem_released h hi)
    have hlength := (h.nodup.subperm hsub).length_le
    rwa [List.length_range] at hlength
  unfold Fits at fits
  rw [free, taken, List.length_append, List.length_range']
  omega

/-- The list has the slots that are free, and no others. -/
theorem mem_free_iff (fits : pool.Fits) (i : Nat) :
    i ∈ pool.free ↔ i < pool.capacity ∧ pool.state i = .free := by
  unfold Fits at fits
  rw [free, List.mem_append, h.mem_released, List.mem_range'_1, state]
  by_cases hi : i < pool.slots.length
  · rw [List.getElem?_eq_getElem hi, Option.map_some, Option.getD_some]
    constructor
    · rintro (⟨slot, hslot, hfree⟩ | hnever)
      · rw [Option.some.injEq] at hslot
        exact ⟨Nat.lt_of_lt_of_le hi fits, hslot ▸ hfree⟩
      · omega
    · exact fun hfree => Or.inl ⟨_, rfl, hfree.2⟩
  · -- It was never taken.
    rw [List.getElem?_eq_none (Nat.not_lt.mp hi)]
    simp only [reduceCtorEq, false_and, exists_false, false_or, Option.map_none, Option.getD_none,
      and_true]
    omega

/-- What is taken is the slots that are armed or have fired. -/
theorem taken_eq (fits : pool.Fits) :
    pool.taken = ((List.range pool.capacity).filter fun i => pool.state i ≠ .free).length := by
  have hperm : ((List.range pool.capacity).filter fun i => pool.state i = .free).Perm
      pool.free := by
    refine (List.perm_ext_iff_of_nodup (List.nodup_range.filter _) (nodup_free h)).mpr fun i => ?_
    rw [List.mem_filter, List.mem_range, decide_eq_true_iff, mem_free_iff h fits]
  have hsplit := (List.range pool.capacity).length_eq_length_filter_add
    (fun i => decide (pool.state i = .free))
  rw [List.length_range, hperm.length_eq] at hsplit
  have htotal := length_free_add_taken h fits
  simp only [ne_eq, decide_not]
  omega

/-- Arming fails if every slot is taken, and only then. -/
theorem arm_eq_none_iff (fits : pool.Fits) (arming : Arming) :
    pool.arm arming = none ↔ ∀ i < pool.capacity, pool.state i ≠ .free := by
  rw [arm_eq_none_iff_free h, List.eq_nil_iff_forall_not_mem]
  simp only [mem_free_iff h fits, not_and, ne_eq]

end Sound

/-- The same pool, later: its capacity does not change, and it keeps to it. -/
structure Follows (pool pool' : SlotPool) : Prop where
  capacity : pool'.capacity = pool.capacity
  fits : pool.Fits → pool'.Fits

theorem Follows.refl (pool : SlotPool) : pool.Follows pool :=
  ⟨rfl, id⟩

/-- A pool follows that has as many slots. -/
theorem Follows.of_length {pool pool' : SlotPool} (hcapacity : pool'.capacity = pool.capacity)
    (hlength : pool'.slots.length = pool.slots.length) : pool.Follows pool' where
  capacity := hcapacity
  fits := by
    intro hfits
    rw [Fits, hlength, hcapacity]
    exact hfits

theorem Follows.arm {pool pool' : SlotPool} {arming : Arming} {i : Nat} {g : UInt32}
    (h : pool.arm arming = some (i, g, pool')) : pool.Follows pool' := by
  unfold SlotPool.arm at h
  rcases hreleased : pool.released with _ | ⟨index, released⟩ <;> rw [hreleased] at h
  · simp only [Option.ite_none_right_eq_some, Option.some.injEq, Prod.mk.injEq] at h
    rcases h with ⟨hroom, _, _, rfl⟩
    refine ⟨rfl, fun _ => ?_⟩
    simp only [Fits, List.length_append, List.length_singleton]
    omega
  · rcases hslot : pool.slots[index]? with _ | slot <;> simp only [hslot, reduceCtorEq] at h
    simp only [Option.some.injEq, Prod.mk.injEq] at h
    rcases h with ⟨_, _, rfl⟩
    exact .of_length rfl List.length_set

theorem Follows.setSlot (pool : SlotPool) (i : Nat) (slot : TimerSlot) :
    pool.Follows (pool.setSlot i slot) :=
  .of_length rfl List.length_set

theorem Follows.release (pool : SlotPool) (i : Nat) (g : UInt32) :
    pool.Follows (pool.release i g) := by
  unfold SlotPool.release
  split
  · exact .refl pool
  · exact .of_length rfl List.length_set

theorem Follows.fire (pool : SlotPool) (now : Nat) : pool.Follows (pool.fire now) :=
  .of_length rfl (List.length_map _)

end SlotPool

end ReceiveOffload
