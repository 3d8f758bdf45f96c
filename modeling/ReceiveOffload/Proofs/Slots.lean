import ReceiveOffload.Timer.Slots

/-!
# What Slots Do

A pool gives a slot to one arming after another, and what matters of it to an
arming is whether it still owns the slot and in what state that is then. A slot
that is owned is not free and has the generation of the arming, so
`SlotPool.owned?` is all there is to know, and each operation becomes an equation
that says what every arming owns afterwards. `SlotPool.watch?` is the same with
deadlines and durations left out: whether the slot waits, and for which flow, or
has fired.

A slot that is free has to be in the list of those that were released, once, or
an armed slot would be handed out a second time. That is what makes a pool sound.

A generation is raised by a release and by nothing else, and only if the release
was by the owner.

## Main definitions

* `Watch`: What a slot that is owned does.
* `SlotPool.watch?`: What the slot does that an arming owns.
* `SlotPool.generation`: The generation of a slot.
* `SlotPool.Sound`: What is free is known to be.
* `SlotPool.Armed`: One more arming owns a slot.

## Theorems

* `SlotPool.owned?_arm`, `SlotPool.owned?_release`, `SlotPool.owned?_fire`: What
  is owned after an operation.
* `SlotPool.arm_cases`: Arming fails, or gives a slot that nobody owned.
-/

namespace ReceiveOffload

/-- What a timer that is owned does: it waits, for the sake of a flow, or it has
    fired. -/
inductive Watch where
  | waiting (flow : UInt64)
  | fired
  deriving DecidableEq, Repr

/-- What a slot in this state does. -/
def Occupancy.watch? : Occupancy → Option Watch
  | .free => none
  | .armed arming => some (.waiting arming.flow)
  | .fired => some .fired

theorem Occupancy.watch?_eq_none_iff (state : Occupancy) : state.watch? = none ↔ state = .free := by
  cases state <;> simp [watch?]

namespace SlotPool

/-- What the slot does that an arming owns. -/
def watch? (pool : SlotPool) (index : Nat) (generation : UInt32) : Option Watch :=
  (pool.owned? index generation).bind fun slot => slot.state.watch?

/-- The generation of a slot. -/
def generation (pool : SlotPool) (index : Nat) : UInt32 :=
  (pool.slots[index]?.map TimerSlot.generation).getD 0

/-- The slots that are free are those that were released, and none was released
    twice. -/
structure Sound (pool : SlotPool) : Prop where
  nodup : pool.released.Nodup
  mem_released : ∀ i, i ∈ pool.released ↔
    ∃ slot, pool.slots[i]? = some slot ∧ slot.state = .free

/-- A handle watches a slot that has its generation. -/
theorem watch?_eq (pool : SlotPool) (i : Nat) (g : UInt32) :
    pool.watch? i g = pool.slots[i]?.bind fun slot =>
      if slot.generation = g then slot.state.watch? else none := by
  unfold watch? owned?
  rcases pool.slots[i]? with _ | slot
  · rfl
  · by_cases hg : slot.generation = g <;> by_cases hfree : slot.state = .free <;>
      simp [hg, hfree, Occupancy.watch?]

/-- A slot that is owned has the generation of the arming and is not free. -/
theorem owned?_eq_some_iff (pool : SlotPool) (i : Nat) (g : UInt32) (slot : TimerSlot) :
    pool.owned? i g = some slot ↔
      pool.slots[i]? = some slot ∧ slot.generation = g ∧ slot.state ≠ .free := by
  unfold owned?
  rcases pool.slots[i]? with _ | found
  · simp only [reduceCtorEq, false_and]
  · simp only [Option.ite_none_right_eq_some, Option.some.injEq]
    constructor
    · rintro ⟨hfound, rfl⟩
      exact ⟨rfl, hfound⟩
    · rintro ⟨rfl, hfound⟩
      exact ⟨hfound, rfl⟩

/-- What is owned does something. -/
theorem watch?_eq_none_iff (pool : SlotPool) (i : Nat) (g : UInt32) :
    pool.watch? i g = none ↔ pool.owned? i g = none := by
  unfold watch? owned?
  rcases pool.slots[i]? with _ | slot
  · simp
  · by_cases hfree : slot.state = .free <;>
      simp [hfree, Occupancy.watch?_eq_none_iff]

theorem slot_of_watch? (pool : SlotPool) (i : Nat) (g : UInt32) (h : pool.watch? i g ≠ none) :
    ∃ slot, pool.slots[i]? = some slot ∧ slot.generation = g ∧ slot.state ≠ .free ∧
      pool.owned? i g = some slot := by
  rw [Ne, watch?_eq_none_iff] at h
  rcases Option.ne_none_iff_exists'.mp h with ⟨slot, howned⟩
  rcases (pool.owned?_eq_some_iff i g slot).mp howned with ⟨hslot, hg, htaken⟩
  exact ⟨slot, hslot, hg, htaken, howned⟩

/-- What is owned, by way of the slot that is there. -/
theorem owned?_eq (pool : SlotPool) (i : Nat) (g : UInt32) :
    pool.owned? i g = pool.slots[i]?.bind fun slot =>
      if slot.generation = g ∧ slot.state ≠ .free then some slot else none := by
  unfold owned?
  rcases pool.slots[i]? with _ | slot <;> rfl

/-- The pool with another slot in the place of one that is there. -/
def setSlot (pool : SlotPool) (i : Nat) (slot : TimerSlot) : SlotPool :=
  { pool with slots := pool.slots.set i slot }

theorem getElem?_setSlot (pool : SlotPool) (i j : Nat) (old slot : TimerSlot)
    (hold : pool.slots[i]? = some old) :
    (pool.setSlot i slot).slots[j]? = if i = j then some slot else pool.slots[j]? := by
  have hlt := (List.getElem?_eq_some_iff.mp hold).1
  simp only [setSlot, List.getElem?_set]
  by_cases hij : i = j
  · subst hij
    rw [if_pos rfl, if_pos rfl, if_pos hlt]
  · rw [if_neg hij, if_neg hij]

/-- A slot that was set is owned under its new generation. -/
theorem owned?_setSlot (pool : SlotPool) (i j : Nat) (g : UInt32) (old slot : TimerSlot)
    (hold : pool.slots[i]? = some old) :
    (pool.setSlot i slot).owned? j g =
      if i = j then if slot.generation = g ∧ slot.state ≠ .free then some slot else none
      else pool.owned? j g := by
  rw [owned?_eq, owned?_eq, getElem?_setSlot pool i j old slot hold]
  by_cases hij : i = j
  · rw [if_pos hij, if_pos hij, Option.bind_some]
  · rw [if_neg hij, if_neg hij]

theorem generation_setSlot (pool : SlotPool) (i j : Nat) (old slot : TimerSlot)
    (hold : pool.slots[i]? = some old) :
    (pool.setSlot i slot).generation j
      = if i = j then slot.generation else pool.generation j := by
  rw [generation, getElem?_setSlot pool i j old slot hold]
  by_cases hij : i = j
  · rw [if_pos hij, if_pos hij, Option.map_some, Option.getD_some]
  · rw [if_neg hij, if_neg hij]
    rfl

/-- A slot that is free as before, or as before is not, leaves a pool sound. -/
theorem Sound.setSlot {pool : SlotPool} (h : pool.Sound) (i : Nat) (old slot : TimerSlot)
    (hold : pool.slots[i]? = some old) (hfree : slot.state = .free ↔ old.state = .free) :
    (pool.setSlot i slot).Sound where
  nodup := h.nodup
  mem_released := by
    intro j
    rw [getElem?_setSlot pool i j old slot hold]
    show j ∈ pool.released ↔ _
    rw [h.mem_released]
    by_cases hij : i = j
    · subst hij
      simp [hold, hfree]
    · rw [if_neg hij]

/-- An owner may write to the slot and owns what was written. -/
theorem owned?_setSlot_of_owned (pool : SlotPool) (i j : Nat) (g k : UInt32) (old : TimerSlot)
    (arming : Arming) (howned : pool.owned? i g = some old) :
    (pool.setSlot i ⟨g, .armed arming⟩).owned? j k
      = if i = j ∧ g = k then some ⟨g, .armed arming⟩ else pool.owned? j k := by
  rcases (pool.owned?_eq_some_iff i g old).mp howned with ⟨hslot, hg, _⟩
  rw [pool.owned?_setSlot i j k old _ hslot]
  by_cases hij : i = j
  case neg => rw [if_neg hij, if_neg (fun hboth => hij hboth.1)]
  subst hij
  rw [if_pos rfl]
  by_cases hk : g = k
  · simp only [hk, ne_eq, reduceCtorEq, not_false_eq_true, and_self, if_true]
  · -- Another generation did not own the slot, and does not now.
    rw [if_neg (fun hboth => hk hboth.1), if_neg (fun hboth => hk hboth.2), owned?_eq, hslot,
      Option.bind_some, hg, if_neg (fun hboth => hk hboth.1)]

theorem generation_setSlot_of_owned (pool : SlotPool) (i j : Nat) (g : UInt32) (old : TimerSlot)
    (state : Occupancy) (howned : pool.owned? i g = some old) :
    (pool.setSlot i ⟨g, state⟩).generation j = pool.generation j := by
  rcases (pool.owned?_eq_some_iff i g old).mp howned with ⟨hslot, hg, _⟩
  rw [pool.generation_setSlot i j old _ hslot]
  by_cases hij : i = j
  · rw [if_pos hij, generation, ← hij, hslot, Option.map_some, Option.getD_some, hg]
  · rw [if_neg hij]

/-- Releasing takes the slot from its owner and from nobody else. -/
theorem owned?_release (pool : SlotPool) (i j : Nat) (g k : UInt32) :
    (pool.release i g).owned? j k = if i = j ∧ g = k then none else pool.owned? j k := by
  unfold release
  rcases howned : pool.owned? i g with _ | slot
  · by_cases hsame : i = j ∧ g = k
    · rw [if_pos hsame, ← hsame.1, ← hsame.2, howned]
    · rw [if_neg hsame]
  · rcases (pool.owned?_eq_some_iff i g slot).mp howned with ⟨hslot, hg, _⟩
    -- Whatever generation the slot has now, it is free and nobody's.
    refine (pool.owned?_setSlot i j k slot ⟨slot.generation + 1, .free⟩ hslot).trans ?_
    by_cases hij : i = j
    · subst hij
      rw [if_pos rfl, if_neg (fun hboth => hboth.2 rfl)]
      by_cases hk : g = k
      · rw [if_pos ⟨rfl, hk⟩]
      · rw [if_neg (fun hboth => hk hboth.2), owned?_eq, hslot, Option.bind_some, hg,
          if_neg (fun hboth => hk hboth.1)]
    · rw [if_neg hij, if_neg (fun hboth => hij hboth.1)]

/-- A release by the owner raises the generation of the slot. -/
theorem generation_release (pool : SlotPool) (i j : Nat) (g : UInt32) :
    (pool.release i g).generation j
      = pool.generation j + if i = j ∧ pool.watch? i g ≠ none then 1 else 0 := by
  by_cases hwatch : pool.watch? i g = none
  · have howned := (pool.watch?_eq_none_iff i g).mp hwatch
    rw [release, howned, if_neg (fun hboth => hboth.2 hwatch)]
    exact (UInt32.add_zero _).symm
  · rcases pool.slot_of_watch? i g hwatch with ⟨slot, hslot, _, _, howned⟩
    rw [release, howned]
    refine Eq.trans (pool.generation_setSlot i j slot ⟨slot.generation + 1, .free⟩ hslot) ?_
    by_cases hij : i = j
    · subst hij
      rw [if_pos rfl, if_pos ⟨rfl, hwatch⟩, generation, hslot, Option.map_some, Option.getD_some]
    · rw [if_neg hij, if_neg (fun hboth => hij hboth.1)]
      exact (UInt32.add_zero _).symm

theorem Sound.release {pool : SlotPool} (h : pool.Sound) (i : Nat) (g : UInt32) :
    (pool.release i g).Sound := by
  by_cases hwatch : pool.watch? i g = none
  · rw [SlotPool.release, (pool.watch?_eq_none_iff i g).mp hwatch]
    exact h
  · rcases pool.slot_of_watch? i g hwatch with ⟨slot, hslot, _, htaken, howned⟩
    rw [SlotPool.release, howned]
    -- The owner's slot was not free, so it was not among the released ones.
    have hnew : i ∉ pool.released := by
      rw [h.mem_released]
      rintro ⟨slot', hslot', hfree⟩
      rw [hslot, Option.some.injEq] at hslot'
      exact htaken (hslot' ▸ hfree)
    refine ⟨List.nodup_cons.mpr ⟨hnew, h.nodup⟩, fun j => ?_⟩
    have hget := pool.getElem?_setSlot i j slot ⟨slot.generation + 1, .free⟩ hslot
    simp only [SlotPool.setSlot] at hget
    rw [hget, List.mem_cons, h.mem_released]
    by_cases hij : i = j
    · subst hij
      simp
    · rw [if_neg hij]
      simp [Ne.symm hij]

/-- One more arming owns a slot, and that is all that has changed. -/
structure Armed (pool : SlotPool) (arming : Arming) (i : Nat) (g : UInt32) (pool' : SlotPool) :
    Prop where
  sound : pool'.Sound
  unowned : pool.watch? i g = none
  owned? : ∀ j k, pool'.owned? j k
    = if i = j ∧ g = k then some ⟨g, .armed arming⟩ else pool.owned? j k
  generation : ∀ j, pool'.generation j = pool.generation j

/-- Arming writes to one place. There was nothing, or a slot that was free, and
    that is armed under the generation that it had. -/
theorem getElem?_arm {pool pool' : SlotPool} {arming : Arming} {i : Nat} {g : UInt32}
    (h : pool.Sound) (harm : pool.arm arming = some (i, g, pool')) :
    (∀ j, pool'.slots[j]? = if i = j then some ⟨g, .armed arming⟩ else pool.slots[j]?) ∧
      (∀ slot, pool.slots[i]? = some slot → slot = ⟨g, .free⟩) ∧
      (pool.slots[i]? = none → g = 0) ∧
      pool'.released.Nodup ∧ ∀ j, j ∈ pool'.released ↔ j ∈ pool.released ∧ j ≠ i := by
  have hnodup := h.nodup
  unfold arm at harm
  rcases hreleased : pool.released with _ | ⟨index, released⟩ <;> rw [hreleased] at harm hnodup
  · simp only [Option.ite_none_right_eq_some, Option.some.injEq, Prod.mk.injEq] at harm
    rcases harm with ⟨_, rfl, rfl, rfl⟩
    -- One slot at the end and the others in their places.
    refine ⟨fun j => ?_, fun slot hslot => ?_, fun _ => rfl, ?_, fun j => ?_⟩
    · simp only [List.getElem?_append]
      by_cases hj : j < pool.slots.length
      · rw [if_pos hj, if_neg (Nat.ne_of_gt hj)]
      · rw [if_neg hj, List.getElem?_singleton, List.getElem?_eq_none (Nat.not_lt.mp hj)]
        by_cases hend : pool.slots.length = j
        · rw [if_pos hend, if_pos (by omega)]
        · rw [if_neg hend, if_neg (by omega)]
    · rw [List.getElem?_eq_none (Nat.le_refl _)] at hslot
      cases hslot
    · exact List.nodup_nil
    · simp only [List.not_mem_nil, false_and]
  · simp only at harm
    rcases hslot : pool.slots[index]? with _ | slot <;> rw [hslot] at harm
    · cases harm
    simp only [Option.some.injEq, Prod.mk.injEq] at harm
    rcases harm with ⟨rfl, rfl, rfl⟩
    rw [List.nodup_cons] at hnodup
    refine ⟨fun j => pool.getElem?_setSlot index j slot _ hslot, fun slot' hslot' => ?_,
      fun hnone => ?_, hnodup.2, fun j => ?_⟩
    · -- What was released is free.
      rcases (h.mem_released index).mp (hreleased ▸ List.mem_cons_self) with
        ⟨free, hfound, hfree⟩
      rw [hslot, Option.some.injEq] at hfound hslot'
      rw [← hslot', ← hfree, ← hfound]
    · rw [hslot] at hnone
      cases hnone
    · rw [List.mem_cons]
      constructor
      · exact fun hj => ⟨Or.inr hj, fun heq => hnodup.1 (heq ▸ hj)⟩
      · rintro ⟨heq | hj, hne⟩
        · exact absurd heq hne
        · exact hj

/-- Arming gives the slot to one arming and takes it from nobody. -/
theorem owned?_arm {pool pool' : SlotPool} {arming : Arming} {i : Nat} {g : UInt32}
    (h : pool.Sound) (harm : pool.arm arming = some (i, g, pool')) (j : Nat) (k : UInt32) :
    pool'.owned? j k = if i = j ∧ g = k then some ⟨g, .armed arming⟩ else pool.owned? j k := by
  rcases getElem?_arm h harm with ⟨hget, hfree, _⟩
  rw [owned?_eq, owned?_eq, hget]
  by_cases hij : i = j
  case neg => rw [if_neg hij, if_neg (fun hboth => hij hboth.1)]
  subst hij
  rw [if_pos rfl, Option.bind_some]
  by_cases hk : g = k
  · simp only [hk, ne_eq, reduceCtorEq, not_false_eq_true, and_self, if_true]
  · simp only [hk, false_and, and_false, if_false]
    -- The slot had this generation before as well, so nobody else owned it.
    rcases hslot : pool.slots[i]? with _ | slot
    · rfl
    · rw [hfree slot hslot, Option.bind_some, if_neg (fun hboth => hk hboth.1)]

/-- Arming fails, or gives a slot that nobody owned. -/
theorem arm_cases (pool : SlotPool) (arming : Arming) (h : pool.Sound) :
    pool.arm arming = none ∨
      ∃ i g pool', pool.arm arming = some (i, g, pool') ∧ pool.Armed arming i g pool' := by
  rcases harm : pool.arm arming with _ | ⟨i, g, pool'⟩
  · exact Or.inl rfl
  refine Or.inr ⟨i, g, pool', rfl, ?_⟩
  rcases getElem?_arm h harm with ⟨hget, hfree, hfirst, hnodup, hreleased⟩
  constructor
  -- The slot that was taken is the one that is no longer free.
  case sound =>
    refine ⟨hnodup, fun j => ?_⟩
    rw [hreleased, h.mem_released, hget]
    by_cases hij : i = j
    · subst hij
      simp
    · simp [hij, Ne.symm hij]
  case unowned =>
    rw [watch?_eq]
    rcases hslot : pool.slots[i]? with _ | slot
    · rfl
    · rw [hfree slot hslot]
      exact if_pos rfl
  case owned? => exact owned?_arm h harm
  case generation =>
    intro j
    rw [generation, hget, generation]
    by_cases hij : i = j
    · subst hij
      rw [if_pos rfl]
      rcases hslot : pool.slots[i]? with _ | slot
      · rw [hfirst hslot]
        rfl
      · rw [hfree slot hslot]
        rfl
    · rw [if_neg hij]

/-- Firing the slots that are due leaves generations and owners. -/
theorem getElem?_fire (pool : SlotPool) (now i : Nat) :
    (pool.fire now).slots[i]? = pool.slots[i]?.map (TimerSlot.fire now) :=
  List.getElem?_map

end SlotPool

namespace TimerSlot

theorem generation_fire (now : Nat) (slot : TimerSlot) :
    (slot.fire now).generation = slot.generation := by
  unfold fire
  split <;> rfl

/-- A slot fires if it is due, and then it had been armed. -/
theorem watch?_fire (now : Nat) (slot : TimerSlot) :
    (slot.fire now).state.watch? = match slot.due? now with
      | some _ => some .fired
      | none => slot.state.watch? := by
  unfold fire
  rcases slot.due? now with _ | arming <;> rfl

/-- A slot is due if it is armed and its deadline has come. -/
theorem due?_eq_some_iff (now : Nat) (slot : TimerSlot) (arming : Arming) :
    slot.due? now = some arming ↔ slot.state = .armed arming ∧ arming.deadline ≤ now := by
  unfold due?
  rcases slot.state with _ | armed | _
  · simp only [reduceCtorEq, false_and]
  · simp only [Option.ite_none_right_eq_some, Option.some.injEq, Occupancy.armed.injEq]
    constructor
    · rintro ⟨hdue, rfl⟩
      exact ⟨rfl, hdue⟩
    · rintro ⟨rfl, hdue⟩
      exact ⟨hdue, rfl⟩
  · simp only [reduceCtorEq, false_and]

theorem watch?_of_due? (now : Nat) (slot : TimerSlot) (arming : Arming)
    (h : slot.due? now = some arming) : slot.state.watch? = some (.waiting arming.flow) := by
  rw [((slot.due?_eq_some_iff now arming).mp h).1]
  rfl

end TimerSlot

/-- Only an armed slot fires, so no slot is freed or taken by it. -/
theorem TimerSlot.fire_eq_free_iff (now : Nat) (slot : TimerSlot) :
    (slot.fire now).state = .free ↔ slot.state = .free := by
  rw [← Occupancy.watch?_eq_none_iff, ← Occupancy.watch?_eq_none_iff, watch?_fire]
  rcases hdue : slot.due? now with _ | arming
  · rfl
  · simp only [slot.watch?_of_due? now arming hdue, reduceCtorEq]

namespace SlotPool

theorem Sound.fire {pool : SlotPool} (h : pool.Sound) (now : Nat) : (pool.fire now).Sound where
  nodup := h.nodup
  mem_released := by
    intro i
    show i ∈ pool.released ↔ _
    rw [h.mem_released, getElem?_fire]
    rcases pool.slots[i]? with _ | slot
    · simp
    · simp only [Option.map_some, Option.some.injEq, exists_eq_left', slot.fire_eq_free_iff]

/-- Whoever owns a slot owns it after it fired. -/
theorem owned?_fire (pool : SlotPool) (now i : Nat) (g : UInt32) :
    (pool.fire now).owned? i g = (pool.owned? i g).map (TimerSlot.fire now) := by
  rw [owned?_eq, owned?_eq, getElem?_fire]
  rcases pool.slots[i]? with _ | slot
  · rfl
  · simp only [Option.map_some, Option.bind_some, TimerSlot.generation_fire, ne_eq,
      slot.fire_eq_free_iff]
    split <;> rfl

end SlotPool

end ReceiveOffload
