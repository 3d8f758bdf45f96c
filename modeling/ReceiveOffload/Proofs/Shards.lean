import ReceiveOffload.Proofs.Run
import ReceiveOffload.Proofs.Transactions

/-!
# The Number of Shards

An engine locks the record of one flow, works on its copy and lets go of it. Records
of all flows are one map with transactions, however many shards they are spread over,
so an engine cannot know how many there are. It shows neither in what comes of a call
nor in what is left behind.

Engines are compared by what they have pending and by their services. The stores
themselves are not the same, since records lie in different shards.

## Main definitions

* `Engine.SameRecords`: The same is pending, and the services are the same.
* `World.SameRecords`: Engines with the same records that were seen to do the same.

## Theorems

* `Engine.SameRecords.offer`, `Engine.SameRecords.flush`, `Engine.SameRecords.timeOut`,
  `Engine.SameRecords.expire`: The calls.
* `World.sameRecords_run`: Runs on any two numbers of shards.
* `sharded_records`: The records of flows are one map with transactions.
-/

namespace ReceiveOffload

namespace Engine

/-- The same is pending on every flow, and the services are the same. -/
structure SameRecords (engine engine' : Engine) : Prop where
  pending_eq : ∀ flow, engine.pending flow = engine'.pending flow
  services_eq : engine.services = engine'.services

namespace SameRecords

variable {engine engine' : Engine}

/-- What becomes of a flow is decided on its record and on the services. -/
theorem turn_eq (h : engine.SameRecords engine') (flow : UInt64) (segment : Segment)
    (policy : Policy) (extras : Extras) :
    engine.turn flow segment policy extras = engine'.turn flow segment policy extras := by
  rw [turn, turn, h.pending_eq, h.services_eq]

/-- What one engine notices the other does as well. -/
theorem note (h : engine.SameRecords engine') (notice : Notice) :
    (engine.note notice).SameRecords (engine'.note notice) where
  pending_eq := h.pending_eq
  services_eq := congrArg (Services.note · notice) h.services_eq

/-- A segment is refused by both, or turns the same record in the same way. -/
theorem offer (h : engine.SameRecords engine') (flow : UInt64) (frame : Frame) (policy : Policy)
    (extras : Extras) :
    (engine.offer flow frame policy extras).1 = (engine'.offer flow frame policy extras).1 ∧
      (engine.offer flow frame policy extras).2.SameRecords
        (engine'.offer flow frame policy extras).2 := by
  by_cases hdamaged : frame.damaged = true
  · simp only [Engine.offer, hdamaged, if_true, true_and]
    exact h
  rcases hsegment : Segment.ofFrame frame with cause | segment
  · simp only [Engine.offer, hdamaged, Bool.false_eq_true, if_false, hsegment, true_and]
    exact h.note _
  -- The one record is replaced by the same, and the others are left alone.
  · have hframe := (frame.segment?_eq_some_iff segment).mpr
      ⟨Bool.eq_false_iff.mpr hdamaged, hsegment⟩
    rcases engine.offer_accepted flow frame policy extras segment hframe with
      ⟨houtput, hpending, hservices⟩
    rcases engine'.offer_accepted flow frame policy extras segment hframe with
      ⟨houtput', hpending', hservices'⟩
    have hturn := h.turn_eq flow segment policy extras
    refine ⟨by rw [houtput, houtput', hturn], ⟨?_, by rw [hservices, hservices', hturn]⟩⟩
    intro g
    rw [hpending, hpending', hturn, h.pending_eq]

/-- A request to close finds the same aggregate, or none. -/
theorem flush (h : engine.SameRecords engine') (flow : UInt64) :
    (engine.flush flow).1 = (engine'.flush flow).1 ∧
      (engine.flush flow).2.SameRecords (engine'.flush flow).2 := by
  have hboth := h.pending_eq flow
  rcases engine.flush_cases flow with
    ⟨hnone, houtput, hpending, hservices⟩ | ⟨p, hsome, houtput, hpending, hservices⟩
  · rcases engine'.flush_cases flow with
      ⟨hnone', houtput', hpending', hservices'⟩ | ⟨p', hsome', houtput', hpending', hservices'⟩
    · refine ⟨by rw [houtput, houtput'], ⟨?_, by rw [hservices, hservices', h.services_eq]⟩⟩
      intro g
      rw [hpending, hpending', h.pending_eq]
    -- One engine cannot have something pending where the other has nothing.
    · rw [hnone, hsome'] at hboth
      cases hboth
  · rcases engine'.flush_cases flow with
      ⟨hnone', houtput', hpending', hservices'⟩ | ⟨p', hsome', houtput', hpending', hservices'⟩
    · rw [hsome, hnone'] at hboth
      cases hboth
    -- The same aggregate is closed with the same services.
    · rw [hsome, hsome', Option.some.injEq] at hboth
      subst hboth
      have hflushed : engine.flushed flow p = engine'.flushed flow p := by
        rw [flushed, flushed, h.services_eq]
      refine ⟨by rw [houtput, houtput', hflushed], ⟨?_, by rw [hservices, hservices', hflushed]⟩⟩
      intro g
      rw [hpending, hpending', h.pending_eq]

/-- An expiry is late for both or for neither. -/
theorem timeOut (h : engine.SameRecords engine') (expiry : Expiry) :
    (engine.timeOut expiry).1 = (engine'.timeOut expiry).1 ∧
      (engine.timeOut expiry).2.SameRecords (engine'.timeOut expiry).2 := by
  have hboth := h.pending_eq expiry.flow
  by_cases htimely : ∃ p, engine.pending expiry.flow = some p ∧ p.timer = expiry.handle
  · rcases htimely with ⟨p, hp, htimer⟩
    rcases engine.timeOut_timely expiry p hp htimer with ⟨houtput, hpending, hservices⟩
    rcases engine'.timeOut_timely expiry p (hboth ▸ hp) htimer with
      ⟨houtput', hpending', hservices'⟩
    have htimedOut : engine.timedOut expiry p = engine'.timedOut expiry p := by
      rw [timedOut, timedOut, h.services_eq]
    refine ⟨by rw [houtput, houtput', htimedOut], ⟨?_, by rw [hservices, hservices', htimedOut]⟩⟩
    intro g
    rw [hpending, hpending', h.pending_eq]
  -- An expiry that is late closes nothing.
  · have hlate : ∀ p, engine.pending expiry.flow = some p → p.timer ≠ expiry.handle :=
      fun p hp htimer => htimely ⟨p, hp, htimer⟩
    rcases engine.timeOut_late expiry hlate with ⟨houtput, hpending, hservices⟩
    rcases engine'.timeOut_late expiry (hboth ▸ hlate) with ⟨houtput', hpending', hservices'⟩
    refine ⟨by rw [houtput, houtput'], ⟨?_, by rw [hservices, hservices', h.services_eq]⟩⟩
    intro g
    rw [hpending, hpending', h.pending_eq]

/-- What is to be delivered is the same. -/
theorem expire (h : engine.SameRecords engine') (expiry : Expiry) :
    (engine.expire expiry).1 = (engine'.expire expiry).1 ∧
      (engine.expire expiry).2.SameRecords (engine'.expire expiry).2 := by
  have hboth := h.timeOut expiry
  unfold Engine.expire
  generalize engine.timeOut expiry = closed at hboth ⊢
  generalize engine'.timeOut expiry = closed' at hboth ⊢
  rcases closed with ⟨aggregate, left⟩
  rcases closed' with ⟨aggregate', left'⟩
  rcases hboth with ⟨rfl, hengine⟩
  -- Nobody is told if there is no aggregate, or if nobody asked.
  rcases aggregate with _ | aggregate
  · exact ⟨rfl, hengine⟩
  · rcases expiry.completion with _ | completion
    · exact ⟨rfl, hengine.note _⟩
    · exact ⟨rfl, hengine⟩

end SameRecords

end Engine

namespace World

/-- Two engines have the same records, and were seen to do the same. -/
structure SameRecords (world world' : World) : Prop where
  engine : world.engine.SameRecords world'.engine
  history_eq : world.history = world'.history
  stores_eq : world.stores = world'.stores
  releases_eq : world.releases = world'.releases

namespace SameRecords

variable {world world' : World}

/-- What is counted of a world is read off its services. -/
theorem next (h : world.SameRecords world') {engine engine' : Engine} (events : List Event)
    (hengine : engine.SameRecords engine') :
    (world.next engine events).SameRecords (world'.next engine' events) := by
  constructor
  · exact hengine
  · exact congrArg (· ++ events) h.history_eq
  · simp only [World.next, nextFrame, h.stores_eq, h.engine.services_eq, hengine.services_eq]
  · simp only [World.next, generation, h.releases_eq, h.engine.services_eq, hengine.services_eq]

/-- No step finds out how many shards there are. -/
theorem step (h : world.SameRecords world') (s : Step) :
    (world.step s).SameRecords (world'.step s) := by
  cases s with
  | offer flow frame policy extras =>
      rcases h.engine.offer flow frame policy extras with ⟨houtput, hengine⟩
      simp only [World.step, houtput]
      exact h.next _ hengine
  | flush flow =>
      rcases h.engine.flush flow with ⟨houtput, hengine⟩
      simp only [World.step, houtput]
      exact h.next _ hengine
  | advance elapsed =>
      simp only [World.step, h.engine.services_eq]
      exact h.next _ ⟨h.engine.pending_eq, rfl⟩
  | deliver index =>
      -- The expiries that can be delivered are known from the history.
      have hexpiries : world.expiries = world'.expiries := by
        rw [expiries, h.history_eq, expiries]
      simp only [World.step, hexpiries]
      rcases world'.expiries[index]? with _ | expiry
      · exact h
      · rcases h.engine.timeOut expiry with ⟨haggregate, -⟩
        simp only [haggregate]
        exact h.next _ (h.engine.expire expiry).2
  | refuse store extend =>
      simp only [World.step, h.engine.services_eq]
      exact h.next _ ⟨h.engine.pending_eq, rfl⟩

end SameRecords

/-- A run on any number of shards is a run on any other. -/
theorem sameRecords_run (setup : Setup) (shards : Nat) (steps : List Step) :
    (run { setup with shards } steps).SameRecords (run setup steps) := by
  have hpending : ∀ flow, (start { setup with shards }).engine.pending flow
      = (start setup).engine.pending flow := fun flow =>
    (FlowStore.snapshot_ofShards shards flow).trans
      (FlowStore.snapshot_ofShards setup.shards flow).symm
  have hstart : (start { setup with shards }).SameRecords (start setup) :=
    ⟨⟨hpending, rfl⟩, rfl, rfl, rfl⟩
  suffices h : ∀ world world' : World, world.SameRecords world' →
      (steps.foldl step world).SameRecords (steps.foldl step world') from h _ _ hstart
  induction steps with
  | nil => exact fun _ _ h => h
  | cons s steps ih => exact fun world world' h => ih _ _ (h.step s)

end World

/-- On any number of shards the records of flows are one map with transactions. Calls
    in any order are answered as by a plain map, what is read is what was committed
    last, and nothing but committing a copy under an address changes what is read
    there. Engines do the same on every number of shards. -/
theorem sharded_records (shards : Nat) (calls : List RecordCall) :
    let empty : Desk := { store := .ofShards shards }
    let desk := empty.after calls
    let receipts := empty.receipts calls
    receipts = RecordMap.receipts {} calls ∧ desk.Agrees (RecordMap.after {} calls) ∧
      (∀ address, desk.store.shardOf address < max shards 1) ∧
      (∀ address, desk.store.isHeld address = false →
        (desk.call (.lock address)).1 = .read (lastCommitted address receipts) ∧
          (desk.call (.snapshot address)).1 = .read (lastCommitted address receipts)) ∧
      (∀ call address, (∀ copy, (desk.call call).1 = .written copy → call.address ≠ address) →
        (desk.call call).2.store.snapshot address = desk.store.snapshot address) ∧
      (∀ call address, call.address ≠ address →
        (desk.call call).2.store.snapshot address = desk.store.snapshot address ∧
          (desk.call call).2.store.isHeld address = desk.store.isHeld address ∧
          (desk.call call).2.guards.get? address = desk.guards.get? address) ∧
      (∀ address, receipts.filter (fun receipt => receipt.1.address = address)
        = empty.receipts (calls.filter fun call => call.address = address)) ∧
      ∀ (setup : Setup) (steps : List Step),
        (World.run { setup with shards } steps).SameRecords (World.run setup steps) := by
  intro empty desk receipts
  have hempty : empty.Agrees {} := Desk.agrees_ofShards shards
  have hdesk : desk.Agrees (RecordMap.after {} calls) := hempty.after calls
  have hreceipts : receipts = RecordMap.receipts {} calls := hempty.receipts_eq calls
  -- What a map holds is what was committed last, which receipts tell.
  have hlast : ∀ address, (RecordMap.after {} calls).committed address
      = lastCommitted address receipts := by
    intro address
    rw [RecordMap.committed_after, hreceipts, lastCommitted]
  refine ⟨hreceipts, hdesk, ?_, ?_, ?_, ?_, ?_, ?_⟩
  · intro address
    have hlt := desk.store.shardOf_lt address
    rwa [empty.shardCount_after calls] at hlt
  · intro address hheld
    rw [hdesk.isHeld_eq, Option.isSome_eq_false_iff, Option.isNone_iff_eq_none] at hheld
    rw [(hdesk.call _).1, (hdesk.call _).1, ← hlast]
    simp only [RecordMap.call, hheld, and_self]
  -- The map writes a record only when a copy is committed.
  · intro call address hunwritten
    have hcall := hdesk.call call
    rw [hcall.1] at hunwritten
    rw [hcall.2.snapshot_eq, hdesk.snapshot_eq, RecordMap.committed_call]
    exact RecordMap.committedBy_of_ne address _ call _ hunwritten
  · intro call address hne
    have hcall := (hdesk.call call).2
    have hsame := (RecordMap.after {} calls).sameAt_call call address hne
    rw [hcall.snapshot_eq, hcall.isHeld_eq, hcall.guard_eq, hsame.1, hsame.2]
    exact ⟨(hdesk.snapshot_eq address).symm, (hdesk.isHeld_eq address).symm,
      (hdesk.guard_eq address).symm⟩
  · intro address
    rw [hreceipts, hempty.receipts_eq]
    exact RecordMap.receipts_filter address calls {} {} ⟨rfl, rfl⟩
  · exact fun setup steps => World.sameRecords_run setup shards steps

/-- Two records are held at once and edited alike. The one that is committed is read as
    it was edited, and the one that is given up as it was before. -/
theorem sharded_records_twoHeld :
    let pending := (Engine.offer {} 1 (plainFrame 0 [7]) plainPolicy {}).2.pending 1
    let calls : List RecordCall := [.lock 1, .lock 65, .edit 1 fun _ => pending,
      .edit 65 fun _ => pending, .abort 65, .commit 1]
    let desk := ({ store := .ofShards 0 } : Desk).after calls
    desk.store.isHeld 1 = false ∧ desk.store.isHeld 65 = false ∧
      (desk.call (.lock 1)).1 = .read pending ∧ (desk.call (.lock 65)).1 = .read none ∧
      pending ≠ none := by
  intro pending calls desk
  have hread := (sharded_records 0 calls).2.2.2.1
  have hheld : desk.store.isHeld 1 = false ∧ desk.store.isHeld 65 = false := by
    decide +kernel
  exact ⟨hheld.1, hheld.2, (hread 1 hheld.1).1, (hread 65 hheld.2).1, by decide +kernel⟩

end ReceiveOffload
