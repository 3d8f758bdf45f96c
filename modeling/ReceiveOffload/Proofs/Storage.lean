import ReceiveOffload.Engine.Services
import ReceiveOffload.Flow.Pending
import ReceiveOffload.Proofs.Table

/-!
# What Storage Holds

Storage is shared by all flows, and what a flow does to it has to be seen from
two sides: from the flow, which finds the frame of its aggregate where it left
it, and from all others, for whom nothing happened. `Services.outside` is the
second side. It is what is stored but for the frame of one aggregate, and a call
on a flow that leaves it as it is cannot have touched the frame of another.

An operation that may be refused either fails and leaves storage alone or does
the one thing that it is for. Refusals are of the first kind, so an outage that
was used up shows in nothing but the outages that are left. Where taking a frame
out is never refused, it is discarding the frame with a look at it first.

Notices, counters and timers are kept apart from storage. The lemmas that say so
are for `simp`.

## Main definitions

* `FrameStorage.put`, `FrameStorage.grow`: What an operation does that is not
  refused.
* `Services.stored?`: The frame stored under an identifier.
* `Services.outside`: What is stored but for the frame of an aggregate.
* `Services.SparesTakes`: Taking a frame out is not going to be refused.

## Theorems

* `Services.storeFrame_cases`, `Services.extendFrame_cases`,
  `Services.takeFrame_cases`, `Services.takeFrame_eq`: The operations.
-/

namespace ReceiveOffload

namespace FrameStorage

/-- No identifier names two frames, and the octets are counted right. -/
structure Sound (storage : FrameStorage) : Prop where
  distinct : storage.stored.Distinct
  octetCount_eq :
    storage.octetCount = (storage.stored.entries.map fun entry => entry.2.length).sum

/-- The storage with one more frame. -/
def put (storage : FrameStorage) (frame : Frame) : FrameStorage :=
  { storage with
    stored := storage.stored.insert storage.next frame
    octetCount := storage.octetCount + frame.length
    next := ⟨storage.next.number + 1⟩ }

/-- The storage with octets behind a frame that is stored. -/
def grow (storage : FrameStorage) (id : FrameId) (frame : Frame) (octets : Octets) :
    FrameStorage :=
  { storage with
    stored := storage.stored.insert id (frame.append octets)
    octetCount := storage.octetCount + octets.length }

/-- A frame that does not fit leaves storage as it was. -/
theorem store_cases (storage : FrameStorage) (frame : Frame) :
    (∃ cause, storage.store frame = (.error cause, storage)) ∨
      storage.store frame = (.ok storage.next, storage.put frame) := by
  unfold store
  split
  · exact Or.inl ⟨_, rfl⟩
  · exact Or.inr rfl

/-- Appending takes a frame to append to, and room for what is appended. -/
theorem extend_cases (storage : FrameStorage) (id : FrameId) (tail : Frame) (trim : Nat) :
    (∃ cause, storage.extend id tail trim = (.error cause, storage)) ∨
      ∃ frame, storage.stored.get? id = some frame ∧
        storage.extend id tail trim = (.ok (frame.append (tail.octets.drop trim)).length,
          storage.grow id frame (tail.octets.drop trim)) := by
  unfold extend
  -- Three things can be wrong: what is cut off, the room, and the identifier.
  split
  · exact Or.inl ⟨_, rfl⟩
  split
  · exact Or.inl ⟨_, rfl⟩
  split
  · exact Or.inl ⟨_, rfl⟩
  · next frame hget =>
      refine Or.inr ⟨frame, hget, ?_⟩
      simp only [grow, List.length_drop]
      rfl

/-- What is taken out is what was there, and there it is no longer. -/
theorem take_eq (storage : FrameStorage) (id : FrameId) :
    storage.take id = (storage.stored.get? id, storage.discard id) := by
  unfold discard take
  rcases storage.stored.get? id with _ | frame <;> rfl

/-- Only the frame that is discarded is gone. -/
theorem get?_discard (storage : FrameStorage) (id j : FrameId) :
    (storage.discard id).stored.get? j = if id = j then none else storage.stored.get? j := by
  unfold discard take
  -- Where nothing was stored, nothing is erased, and nothing is found there either.
  rcases h : storage.stored.get? id with _ | frame
  · by_cases hj : id = j
    · rw [if_pos hj, ← hj, h]
    · rw [if_neg hj]
  · exact Table.get?_erase storage.stored id j

/-- An identifier that was given out is not given out again. -/
theorem next_discard (storage : FrameStorage) (id : FrameId) :
    (storage.discard id).next = storage.next := by
  unfold discard take
  rcases storage.stored.get? id with _ | frame <;> rfl

/-- A frame is stored under the next identifier, and nothing else changes. -/
theorem get?_put (storage : FrameStorage) (frame : Frame) (j : FrameId) :
    (storage.put frame).stored.get? j
      = if storage.next = j then some frame else storage.stored.get? j :=
  Table.get?_insert storage.stored storage.next j frame

theorem get?_grow (storage : FrameStorage) (id j : FrameId) (frame : Frame) (octets : Octets) :
    (storage.grow id frame octets).stored.get? j
      = if id = j then some (frame.append octets) else storage.stored.get? j :=
  Table.get?_insert storage.stored id j (frame.append octets)

namespace Sound

variable {storage : FrameStorage}

/-- A frame is counted once, provided that its identifier is free. -/
theorem put (h : storage.Sound) (frame : Frame)
    (hfresh : storage.stored.get? storage.next = none) : (storage.put frame).Sound := by
  have hentries := Table.entries_insert_of_none storage.stored storage.next frame hfresh
  constructor
  · exact h.distinct.insert storage.next frame
  · simp only [FrameStorage.put, hentries, List.map_append, List.map_singleton,
      List.sum_append, List.sum_singleton, h.octetCount_eq]

/-- A frame that grows is counted with what was appended. -/
theorem grow (h : storage.Sound) (id : FrameId) (frame : Frame) (octets : Octets)
    (hget : storage.stored.get? id = some frame) : (storage.grow id frame octets).Sound := by
  rcases Table.entries_insert_of_some storage.stored id (frame.append octets) frame hget with
    ⟨before, after, hold, hnew⟩
  have hcount := h.octetCount_eq
  simp only [hold, List.map_append, List.map_cons, List.sum_append, List.sum_cons] at hcount
  constructor
  · exact h.distinct.insert id (frame.append octets)
  · -- One entry became longer, by as much as was counted.
    have hlength : (frame.append octets).length = frame.length + octets.length :=
      List.length_append
    simp only [FrameStorage.grow, hnew, hcount, List.map_append, List.map_cons, List.sum_append,
      List.sum_cons, hlength]
    omega

/-- A frame that is gone is no longer counted. -/
theorem discard (h : storage.Sound) (id : FrameId) : (storage.discard id).Sound := by
  unfold FrameStorage.discard take
  rcases hget : storage.stored.get? id with _ | frame
  · exact h
  · rcases h.distinct.entries_erase id frame hget with ⟨before, after, hold, hnew⟩
    have hcount := h.octetCount_eq
    simp only [hold, List.map_append, List.map_cons, List.sum_append, List.sum_cons] at hcount
    -- One entry is gone, and its octets with it.
    constructor
    · exact h.distinct.erase id
    · simp only [hnew, hcount, List.map_append, List.sum_append]
      omega

end Sound

end FrameStorage

namespace Services

variable (s : Services)

/-- The frame stored under an identifier. -/
def stored? (id : FrameId) : Option Frame :=
  s.frames.storage.stored.get? id

/-- What is stored but for the frame of an aggregate. -/
def outside (pending : Option Pending) (id : FrameId) : Option Frame :=
  if pending.map Pending.frame = some id then none else s.stored? id

/-- Taking a frame out is not going to be refused. -/
def SparesTakes : Prop :=
  s.frames.outages.take = []

theorem outside_none : s.outside none = s.stored? :=
  funext fun _ => if_neg (by simp only [Option.map_none, reduceCtorEq, not_false_eq_true])

theorem outside_some (p : Pending) (id : FrameId) :
    s.outside (some p) id = if p.frame = id then none else s.stored? id := by
  simp only [outside, Option.map_some, Option.some.injEq]

/-- Outside of an aggregate is what is stored under another identifier. -/
theorem outside_of_ne (pending : Option Pending) (id : FrameId)
    (h : ∀ p, pending = some p → p.frame ≠ id) : s.outside pending id = s.stored? id := by
  rcases pending with _ | p
  · rw [outside_none]
  · rw [outside_some, if_neg (h p rfl)]

/-- What is found outside of an aggregate is not its frame. -/
theorem ne_of_outside_ne_none (pending : Option Pending) (id : FrameId)
    (h : s.outside pending id ≠ none) (p : Pending) (hp : pending = some p) : p.frame ≠ id := by
  intro hid
  rw [hp, outside_some, if_pos hid] at h
  exact h rfl

@[simp] theorem frames_note (notice : Notice) : (s.note notice).frames = s.frames := rfl

@[simp] theorem frames_count (base : UInt64) (statistic : Statistic) (amount : Nat) :
    (s.count base statistic amount).frames = s.frames := rfl

/-- Storage refuses a frame or stores it under the next identifier. -/
theorem storeFrame_cases (frame : Frame) :
    ∃ outages : Outages, outages.take = s.frames.outages.take ∧
      ((∃ cause, s.storeFrame frame
        = (.error cause, { s with frames := ⟨s.frames.storage, outages⟩ })) ∨
      s.storeFrame frame = (.ok s.frames.storage.next,
        { s with frames := ⟨s.frames.storage.put frame, outages⟩ })) := by
  -- An outage is used up in either case, and that is all there is to a refusal.
  rcases hcall : s.frames.outages.store.call with ⟨refused, ahead⟩
  refine ⟨{ s.frames.outages with store := ahead }, rfl, ?_⟩
  simp only [storeFrame, FrameDepot.store, hcall]
  cases refused with
  | true => exact Or.inl ⟨_, rfl⟩
  | false =>
      rcases s.frames.storage.store_cases frame with ⟨cause, h⟩ | h
      · exact Or.inl ⟨cause, by simp only [h, Bool.false_eq_true, if_false]⟩
      · exact Or.inr (by simp only [h, Bool.false_eq_true, if_false])

/-- Storage refuses to append, or appends to the frame that is stored. -/
theorem extendFrame_cases (id : FrameId) (tail : Frame) (trim : Nat) :
    ∃ outages : Outages, outages.take = s.frames.outages.take ∧
      ((∃ cause, s.extendFrame id tail trim
        = (.error cause, { s with frames := ⟨s.frames.storage, outages⟩ })) ∨
      ∃ frame, s.stored? id = some frame ∧
        s.extendFrame id tail trim = (.ok (frame.append (tail.octets.drop trim)).length,
          { s with frames :=
            ⟨s.frames.storage.grow id frame (tail.octets.drop trim), outages⟩ })) := by
  rcases hcall : s.frames.outages.extend.call with ⟨refused, ahead⟩
  refine ⟨{ s.frames.outages with extend := ahead }, rfl, ?_⟩
  simp only [extendFrame, FrameDepot.extend, hcall]
  -- Storage may refuse by itself, besides the outages that were arranged.
  cases refused with
  | true => exact Or.inl ⟨_, rfl⟩
  | false =>
      rcases s.frames.storage.extend_cases id tail trim with ⟨cause, h⟩ | ⟨frame, hget, h⟩
      · exact Or.inl ⟨cause, by simp only [h, Bool.false_eq_true, if_false]⟩
      · exact Or.inr ⟨frame, hget, by simp only [h, Bool.false_eq_true, if_false]⟩

/-- Storage refuses to give a frame out, or looks at it and discards it. -/
theorem takeFrame_cases (id : FrameId) :
    ∃ outages : Outages,
      s.takeFrame id = (none, { s with frames := ⟨s.frames.storage, outages⟩ }) ∨
      s.takeFrame id
        = (s.stored? id, { s with frames := ⟨s.frames.storage.discard id, outages⟩ }) := by
  rcases hcall : s.frames.outages.take.call with ⟨refused, ahead⟩
  refine ⟨{ s.frames.outages with take := ahead }, ?_⟩
  simp only [takeFrame, FrameDepot.take, hcall, FrameStorage.take_eq]
  cases refused with
  | true => exact Or.inl rfl
  | false => exact Or.inr rfl

/-- Taking a frame out is looking at it and discarding it. -/
theorem takeFrame_eq (id : FrameId) (h : s.SparesTakes) :
    s.takeFrame id = (s.stored? id, s.discardFrame id) := by
  -- With no refusal ahead, the call leaves the outages as they are as well.
  rcases s with ⟨⟨storage, store, extend, take⟩, timers, counters, metadata, notices⟩
  rw [SparesTakes] at h
  simp only at h
  subst h
  simp only [takeFrame, FrameDepot.take, Gaps.call, Bool.false_eq_true, if_false,
    FrameStorage.take_eq]
  rfl

/-- Discarding a frame leaves the others where they are. -/
theorem stored?_discardFrame (id : FrameId) :
    (s.discardFrame id).stored? = fun j => if id = j then none else s.stored? j :=
  funext (s.frames.storage.get?_discard id)

end Services

end ReceiveOffload
