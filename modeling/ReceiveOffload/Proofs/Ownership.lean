import Mathlib.Data.Set.List
import ReceiveOffload.Proofs.Books
import ReceiveOffload.Proofs.Tending

/-!
# Who Owns What

Timers and storage are given out and taken back along every path that a call can
take, and none of these may forget one. What it comes to is that three stores
agree at any time: the pending aggregates, the timer slots and the stored
frames. Each aggregate has one timer and one frame, no two share either, and
nothing else is in use.

That the stores agree was shown for frames and for timers each by itself. Here
it is put together, and turned into numbers. A list of the flows on which
something is pending is a list of the stored frames, by way of the identifiers,
and for each pool it is a list of the slots that are taken. So the counters of
both stores count the pending aggregates.

## Main definitions

* `Engine.Lists`: The flows on which something is pending.
* `World.Owned`: The three stores agree.

## Theorems

* `World.Backed.exists_lists`: The stored frames are those of the pending
  aggregates.
* `World.Tended.taken_eq`: The slots that are taken are those of the pending
  aggregates.
* `owned_run`: The three stores agree whatever happens.
-/

namespace ReceiveOffload

/-- The flows on which something is pending, each of them once, with what is
    pending on it. -/
structure Engine.Lists (engine : Engine) (active : List (UInt64 × Pending)) : Prop where
  nodup : (active.map Prod.fst).Nodup
  mem_iff : ∀ flow p, (flow, p) ∈ active ↔ engine.pending flow = some p

namespace World

variable {w : World}

/-- The store of frames. -/
def storage (w : World) : FrameStorage :=
  w.engine.services.frames.storage

/-- The flows on which something is pending can be listed as their frames are
    stored. -/
theorem Backed.exists_lists (h : w.Backed) :
    ∃ active, w.engine.Lists active ∧
      active.map (fun a => a.2.frame) = w.storage.stored.entries.map Prod.fst := by
  have hdistinct := h.ready.sound.distinct
  -- Every frame that is stored is the frame of a flow.
  have hrange : w.storage.stored.entries.map Prod.fst ∈
      Set.range (List.map fun a : {a : UInt64 × Pending // w.engine.pending a.1 = some a.2} =>
        a.1.2.frame) := by
    rw [Set.range_list_map]
    intro id hid
    rcases List.mem_map.mp hid with ⟨⟨id', frame⟩, hentry, rfl⟩
    have hstored : w.engine.services.stored? id' = some frame :=
      (hdistinct.mem_iff id' frame).mp hentry
    rcases h.owned id' (by rw [hstored]; exact Option.some_ne_none frame) with
      ⟨flow, p, hp, hframe⟩
    exact ⟨⟨(flow, p), hp⟩, hframe⟩
  rcases hrange with ⟨owners, howners⟩
  have hframes : (owners.map Subtype.val).map (fun a => a.2.frame)
      = w.storage.stored.entries.map Prod.fst := by
    rw [← howners, List.map_map]
    rfl
  -- The owners of the stored frames, in that order, are the list.
  have hpending : ∀ a ∈ owners.map Subtype.val, w.engine.pending a.1 = some a.2 := by
    intro a ha
    rcases List.mem_map.mp ha with ⟨owner, _, rfl⟩
    exact owner.2
  refine ⟨owners.map Subtype.val, ⟨?_, fun flow p => ⟨hpending (flow, p), fun hp => ?_⟩⟩, hframes⟩
  · have hnodup : (owners.map Subtype.val).Nodup := by
      refine List.Nodup.of_map (fun a => a.2.frame) ?_
      rw [hframes]
      exact hdistinct
    -- A flow has one aggregate, so no flow is listed with two.
    refine hnodup.map_on (fun a ha b hb hflow => Prod.ext hflow ?_)
    have hsame := hpending a ha
    rw [hflow, hpending b hb, Option.some.injEq] at hsame
    exact hsame.symm
  · have hstored := h.stored flow p hp
    rcases hget : w.engine.services.stored? p.frame with _ | frame
    · exact absurd hget hstored
    -- The frame of what is pending is stored, so some flow is listed with it, and no
    -- two flows share a frame.
    have hmem : p.frame ∈ (owners.map Subtype.val).map (fun a => a.2.frame) := by
      rw [hframes]
      exact List.mem_map.mpr ⟨(p.frame, frame), (hdistinct.mem_iff p.frame frame).mpr hget, rfl⟩
    rcases List.mem_map.mp hmem with ⟨⟨g, q⟩, hmember, hframe⟩
    have hq := hpending (g, q) hmember
    have hflow := h.apart flow g p q hp hq hframe.symm
    subst hflow
    rw [show w.engine.pending flow = some q from hq, Option.some.injEq] at hp
    exact hp ▸ hmember

/-- What is pending is stored, and its length is known. -/
theorem Backed.frameLength?_eq (h : w.Backed) (flow : UInt64) (p : Pending)
    (hp : w.engine.pending flow = some p) :
    w.storage.frameLength? p.frame = some p.length.toNat ∧ 0 < p.segments := by
  rcases h.held flow with ⟨members, hholds, _⟩
  rw [hp] at hholds
  rcases hholds with ⟨first, rest, stored, _, hstored, m⟩
  constructor
  · rw [FrameStorage.frameLength?, show w.storage.stored.get? p.frame = some stored from hstored,
      Option.map_some, m.length_eq.1]
  · rw [m.segments_eq]
    exact Nat.succ_pos rest.length

/-- The counters of storage count what is pending. -/
theorem Backed.counts_eq (h : w.Backed) (active : List (UInt64 × Pending))
    (hlists : w.engine.Lists active)
    (hframes : active.map (fun a => a.2.frame) = w.storage.stored.entries.map Prod.fst) :
    w.storage.frameCount = active.length ∧
      w.storage.octetCount = (active.map fun a => a.2.length.toNat).sum := by
  constructor
  · have hlength := congrArg List.length hframes
    rw [List.length_map, List.length_map] at hlength
    exact hlength.symm
  · -- Both sums are over the same identifiers, with the length of what is stored
    -- under them.
    have hentries : w.storage.stored.entries.map (fun entry => entry.2.length)
        = (w.storage.stored.entries.map Prod.fst).map
          fun id => (w.storage.frameLength? id).getD 0 := by
      rw [List.map_map]
      refine List.map_congr_left (fun entry hentry => ?_)
      have hget := (h.ready.sound.distinct.mem_iff entry.1 entry.2).mp hentry
      simp only [Function.comp_apply, FrameStorage.frameLength?,
        show w.storage.stored.get? entry.1 = some entry.2 from hget, Option.map_some,
        Option.getD_some]
    have hactive : active.map (fun a => a.2.length.toNat)
        = (active.map fun a => a.2.frame).map fun id => (w.storage.frameLength? id).getD 0 := by
      rw [List.map_map]
      refine List.map_congr_left (fun a ha => ?_)
      have hlength := (h.frameLength?_eq a.1 a.2 ((hlists.mem_iff a.1 a.2).mp ha)).1
      simp only [Function.comp_apply, hlength, Option.getD_some]
    rw [hactive, hframes, ← hentries]
    exact h.ready.sound.octetCount_eq

/-- The timer of an aggregate is taken. -/
theorem Tended.watch?_timer (h : w.Tended) (flow : UInt64) (p : Pending)
    (hp : w.engine.pending flow = some p) : w.timers.watch? p.timer ≠ none :=
  h.watch?_ne_none flow p.timer ((w.timer?_eq_some_iff flow p.timer).mpr ⟨p, hp, rfl⟩)

/-- No two aggregates have timers in one slot. -/
theorem Tended.slots_apart (h : w.Tended) (flow flow' : UInt64) (p p' : Pending)
    (hp : w.engine.pending flow = some p) (hp' : w.engine.pending flow' = some p')
    (hpool : p.timer.pool = p'.timer.pool) (hslot : p.timer.slot = p'.timer.slot) :
    flow = flow' := by
  have hgeneration := w.timers.generation_of_watch? p.timer (h.watch?_timer flow p hp)
  have hgeneration' := w.timers.generation_of_watch? p'.timer (h.watch?_timer flow' p' hp')
  rw [hpool, hslot, hgeneration'] at hgeneration
  -- Both are owned, and owners of one slot have the same generation.
  have hsame : p'.timer = p.timer :=
    (p'.timer.eq_iff p.timer).mpr ⟨hpool.symm, hslot.symm, hgeneration⟩
  exact h.apart flow flow' p.timer ((w.timer?_eq_some_iff _ _).mpr ⟨p, hp, rfl⟩)
    ((w.timer?_eq_some_iff _ _).mpr ⟨p', hp', hsame⟩)

/-- A slot is taken exactly if it is that of an aggregate. -/
theorem Tended.slot_taken_iff (h : w.Tended) (pool : Nat) (found : SlotPool)
    (hget : w.timers.pools.get? pool = some found) (i : Nat) :
    (∃ slot, found.slots[i]? = some slot ∧ slot.state ≠ .free) ↔
      ∃ flow p, w.engine.pending flow = some p ∧ p.timer.pool = pool ∧ p.timer.slot = i := by
  constructor
  · rintro ⟨slot, hfound, htaken⟩
    have hwatch : w.timers.watch? ⟨pool, i, slot.generation⟩ ≠ none := by
      rw [w.timers.watch?_of_get? ⟨pool, i, slot.generation⟩ found hget, found.watch?_eq, hfound,
        Option.bind_some, if_pos rfl, Ne, Occupancy.watch?_eq_none_iff]
      exact htaken
    rcases h.owned _ hwatch with ⟨flow, htimer⟩
    rcases (w.timer?_eq_some_iff _ _).mp htimer with ⟨p, hp, hhandle⟩
    exact ⟨flow, p, hp, by rw [hhandle], by rw [hhandle]⟩
  · rintro ⟨flow, p, hp, hpool, rfl⟩
    have hwatch := h.watch?_timer flow p hp
    rw [w.timers.watch?_of_get? p.timer found (hpool ▸ hget)] at hwatch
    rcases found.slot_of_watch? _ _ hwatch with ⟨slot, hfound, _, htaken, _⟩
    exact ⟨slot, hfound, htaken⟩

/-- The slots that were released and those of the aggregates are all the slots
    of a pool, each once. -/
theorem Tended.perm_range (h : w.Tended) (active : List (UInt64 × Pending))
    (hlists : w.engine.Lists active) (pool : Nat) (found : SlotPool)
    (hget : w.timers.pools.get? pool = some found) :
    (found.released
      ++ (active.filter fun a => a.2.timer.pool = pool).map fun a => a.2.timer.slot).Perm
      (List.range found.slots.length) := by
  have hsound := h.sound.pools pool found hget
  have hmem : ∀ a, a ∈ active.filter (fun a => a.2.timer.pool = pool) ↔
      w.engine.pending a.1 = some a.2 ∧ a.2.timer.pool = pool := by
    intro a
    rw [List.mem_filter, hlists.mem_iff, decide_eq_true_eq]
  have hslots : ∀ i, i ∈ (active.filter fun a => a.2.timer.pool = pool).map
      (fun a => a.2.timer.slot) ↔ ∃ slot, found.slots[i]? = some slot ∧ slot.state ≠ .free := by
    intro i
    rw [h.slot_taken_iff pool found hget, List.mem_map]
    constructor
    · rintro ⟨a, ha, hslot⟩
      rcases (hmem a).mp ha with ⟨hp, hpool⟩
      exact ⟨a.1, a.2, hp, hpool, hslot⟩
    · rintro ⟨flow, p, hp, hpool, hslot⟩
      exact ⟨(flow, p), (hmem (flow, p)).mpr ⟨hp, hpool⟩, hslot⟩
  refine (List.perm_ext_iff_of_nodup ?_ List.nodup_range).mpr (fun i => ?_)
  · rw [List.nodup_append]
    refine ⟨hsound.nodup, ?_, ?_⟩
    · -- No slot is taken twice, since no two aggregates are in one slot.
      refine List.Nodup.map_on ?_ ((List.Nodup.of_map _ hlists.nodup).filter _)
      intro a ha b hb hslot
      rcases (hmem a).mp ha with ⟨hp, hpool⟩
      rcases (hmem b).mp hb with ⟨hq, hpool'⟩
      have hflow := h.slots_apart a.1 b.1 a.2 b.2 hp hq (hpool.trans hpool'.symm) hslot
      rw [hflow, hq, Option.some.injEq] at hp
      exact Prod.ext hflow hp.symm
    · -- No slot is both free and taken.
      intro i hfree j htaken hij
      rcases (hsound.mem_released i).mp hfree with ⟨slot, hfound, hstate⟩
      rcases (hslots j).mp htaken with ⟨slot', hfound', hstate'⟩
      rw [← hij, hfound, Option.some.injEq] at hfound'
      exact hstate' (hfound' ▸ hstate)
  · -- Every slot of the pool is either free or taken.
    rw [List.mem_append, List.mem_range, hsound.mem_released, hslots]
    constructor
    · rintro (⟨slot, hfound, _⟩ | ⟨slot, hfound, _⟩) <;>
        exact (List.getElem?_eq_some_iff.mp hfound).1
    · intro hi
      rcases hfound : found.slots[i]? with _ | slot
      · exact absurd (List.getElem?_eq_none_iff.mp hfound) (Nat.not_le.mpr hi)
      by_cases hfree : slot.state = .free
      · exact Or.inl ⟨slot, rfl, hfree⟩
      · exact Or.inr ⟨slot, rfl, hfree⟩

/-- The slots of a pool that are taken are as many as there are aggregates with
    a timer in it. -/
theorem Tended.taken_eq (h : w.Tended) (active : List (UInt64 × Pending))
    (hlists : w.engine.Lists active) (pool : Nat) :
    w.timers.taken pool = (active.filter fun a => a.2.timer.pool = pool).length := by
  unfold Timers.taken
  rcases hget : w.timers.pools.get? pool with _ | found
  · -- Where there is no pool, nobody has a timer in it.
    rw [eq_comm, List.length_eq_zero_iff, List.filter_eq_nil_iff]
    intro a ha hpool
    have hwatch := h.watch?_timer a.1 a.2 ((hlists.mem_iff a.1 a.2).mp ha)
    exact hwatch (w.timers.watch?_of_get?_none a.2.timer (of_decide_eq_true hpool ▸ hget))
  · have hlength := (h.perm_range active hlists pool found hget).length_eq
    rw [List.length_append, List.length_map, List.length_range] at hlength
    simp only [SlotPool.taken]
    omega

/-- Timers, storage and the pending aggregates agree. -/
structure Owned (w : World) : Prop where
  /-- An aggregate without segments is no aggregate. -/
  merged : ∀ flow p, w.engine.pending flow = some p → 0 < p.segments
  /-- The frame of an aggregate is stored, and its length is known. -/
  stored : ∀ flow p, w.engine.pending flow = some p →
    w.storage.frameLength? p.frame = some p.length.toNat
  /-- The timer of an aggregate is armed for its flow, or it has fired and the
      expiry was handed out. -/
  timed : ∀ flow p, w.engine.pending flow = some p →
    ∃ slot, w.timers.owned? p.timer = some slot ∧
      ((∃ arming, slot.state = .armed arming ∧ arming.flow = flow) ∨
        (slot.state = .fired ∧ ∃ e ∈ w.expiries, e.handle = p.timer ∧ e.flow = flow))
  /-- No expiry was delivered for it. -/
  undelivered : ∀ flow p, w.engine.pending flow = some p →
    ∀ e ∈ w.deliveries, e.handle ≠ p.timer
  timersApart : ∀ flow flow' p p', w.engine.pending flow = some p →
    w.engine.pending flow' = some p' → p.timer = p'.timer → flow = flow'
  framesApart : ∀ flow flow' p p', w.engine.pending flow = some p →
    w.engine.pending flow' = some p' → p.frame = p'.frame → flow = flow'
  /-- Nothing else is in use. -/
  counted : ∃ active, w.engine.Lists active ∧
    (∀ pool, w.timers.taken pool = (active.filter fun a => a.2.timer.pool = pool).length) ∧
    w.storage.frameCount = active.length ∧
    w.storage.octetCount = (active.map fun a => a.2.length.toNat).sum

/-- What the timer of an aggregate does, in terms of its slot. -/
theorem Tended.slot_of_timer (h : w.Tended) (flow : UInt64) (p : Pending)
    (hp : w.engine.pending flow = some p) :
    ∃ slot, w.timers.owned? p.timer = some slot ∧
      ((∃ arming, slot.state = .armed arming ∧ arming.flow = flow) ∨
        (slot.state = .fired ∧ ∃ e ∈ w.expiries, e.handle = p.timer ∧ e.flow = flow)) := by
  have htimer := (w.timer?_eq_some_iff flow p.timer).mpr ⟨p, hp, rfl⟩
  -- What the timer does is read off the state of its slot.
  rcases h.runs flow p.timer htimer with hwatch | ⟨hwatch, hexpiry⟩
  all_goals
    rcases Option.bind_eq_some_iff.mp hwatch with ⟨⟨generation, state⟩, howned, hstate⟩
    refine ⟨_, howned, ?_⟩
  · rcases state with _ | arming | _
    · cases hstate
    · rw [Occupancy.watch?, Option.some.injEq, Watch.waiting.injEq] at hstate
      exact Or.inl ⟨arming, rfl, hstate⟩
    · cases hstate
  · rcases state with _ | arming | _
    · cases hstate
    · cases hstate
    · exact Or.inr ⟨rfl, hexpiry⟩

end World

/-- Whatever happens, timers, storage and the pending aggregates agree. -/
theorem owned_run (setup : Setup) (steps : List Step)
    (hstores : (World.run setup steps).stores < 2 ^ 64)
    (hfew : ∀ pool slot, (World.run setup steps).releases pool slot < 2 ^ 32) :
    (World.run setup steps).Owned := by
  have hbacked := World.backed_run setup steps hstores
  have htended := World.tended_run setup steps hfew
  rcases hbacked.exists_lists with ⟨active, hlists, hframes⟩
  rcases hbacked.counts_eq active hlists hframes with ⟨hcount, hoctets⟩
  constructor
  case merged => exact fun flow p hp => (hbacked.frameLength?_eq flow p hp).2
  case stored => exact fun flow p hp => (hbacked.frameLength?_eq flow p hp).1
  case timed => exact htended.slot_of_timer
  case undelivered =>
    intro flow p hp e he hhandle
    -- What was delivered is old, and the timer of an aggregate is owned.
    have hunowned := htended.watch?_old hfew e.handle (htended.past e he)
    exact htended.watch?_timer flow p hp (hhandle ▸ hunowned)
  case timersApart =>
    intro flow flow' p p' hp hp' hsame
    exact htended.apart flow flow' p.timer ((World.timer?_eq_some_iff _ _ _).mpr ⟨p, hp, rfl⟩)
      ((World.timer?_eq_some_iff _ _ _).mpr ⟨p', hp', hsame.symm⟩)
  case framesApart => exact hbacked.apart
  case counted =>
    exact ⟨active, hlists, htended.taken_eq active hlists, hcount, hoctets⟩

/-- Three aggregates: one is closed by its timer, one has a timer that fired and
    that nobody has dealt with, and one waits. -/
def threeTimers : List Step := [
  .offer 7 (plainFrame 1 [1, 2]) plainPolicy {},
  .offer 8 (plainFrame 9 [70]) plainPolicy {},
  .advance 10,
  .deliver 0,
  .offer 9 (plainFrame 3 [3, 4]) plainPolicy {}
]

theorem owned_run_threeTimers :
    (World.run {} threeTimers).stores < 2 ^ 64 ∧
      (∀ pool slot, (World.run {} threeTimers).releases pool slot < 2 ^ 32) ∧
      (World.run {} threeTimers).Owned := by
  have hstores : (World.run {} threeTimers).stores < 2 ^ 64 := by decide +kernel
  have hfew : ∀ pool slot, (World.run {} threeTimers).releases pool slot < 2 ^ 32 := by
    intro pool slot
    have hle := World.releases_le_run {} threeTimers (by decide) pool slot
    exact Nat.lt_of_le_of_lt hle (by decide)
  exact ⟨hstores, hfew, owned_run {} threeTimers hstores hfew⟩

example : (World.run {} threeTimers).timers.taken 0 = 2 := by decide +kernel

end ReceiveOffload
