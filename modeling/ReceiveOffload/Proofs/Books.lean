import ReceiveOffload.Proofs.Calls
import ReceiveOffload.Proofs.Turns

/-!
# The Books of Every Flow

The books of one flow are kept by looking at that flow alone, and the frame of
its aggregate lies in a storage that all flows share. `World.Backed` holds both
against each other, for every flow at once. The frames that wait in the books
are the segments of the aggregate that is pending, its frame is stored, no two
flows share one, and every frame that is stored has a flow.

A call is on one flow, and that is what makes the invariant go through. For the
flow it is what the turn accounts for. For any other flow nothing has happened:
its frame is outside of the one that was worked on, and a frame that was stored
meanwhile has an identifier that was free.

Identifiers are sixty-four bits wide and count up, and the world knows how many
were given out. As long as there is one left, the next is free.

## Main definitions

* `World.Backed`: What pends is stored, is in the books, and is all that is
  stored.
* `World.Calling`: A call on one flow, as all the others see it.

## Theorems

* `World.Calling.backed`: A call on one flow keeps it.
* `World.backed_run`: It holds of every run that stores fewer frames than there
  are identifiers.
-/

namespace ReceiveOffload

namespace World

/-- What pends is stored, is in the books, and is all that is stored. -/
structure Backed (w : World) : Prop where
  ready : w.engine.services.Ready
  counted : w.nextFrame = UInt64.ofNat w.stores
  /-- Identifiers were given out in order. -/
  named : ∀ id, w.engine.services.stored? id ≠ none → id.number.toNat < w.stores
  owned : ∀ id, w.engine.services.stored? id ≠ none →
    ∃ flow p, w.engine.pending flow = some p ∧ p.frame = id
  apart : ∀ flow flow' p p', w.engine.pending flow = some p →
    w.engine.pending flow' = some p' → p.frame = p'.frame → flow = flow'
  held : ∀ flow, ∃ members, w.engine.services.Holds (w.engine.pending flow) members ∧
    (w.ledger flow).waiting = members.map Segment.frame
  balanced : ∀ flow, (w.ledger flow).Balanced

/-- While there are identifiers left, and those in use were given out in order,
    the next one is free. -/
theorem fresh_of_named (w : World) (hcounted : w.nextFrame = UInt64.ofNat w.stores)
    (hnamed : ∀ id, w.engine.services.stored? id ≠ none → id.number.toNat < w.stores)
    (hstores : w.stores < 2 ^ 64) : w.engine.services.Fresh := by
  rw [Services.Fresh]
  by_contra hstored
  -- The next identifier is the number of frames that were stored, and those that
  -- are in use are smaller.
  have hlt := hnamed _ hstored
  have hcounted := congrArg UInt64.toNat hcounted
  rw [UInt64.toNat_ofNat_of_lt' hstores] at hcounted
  exact Nat.lt_irrefl _ (hcounted ▸ hlt)

theorem Backed.fresh {w : World} (h : w.Backed) (hstores : w.stores < 2 ^ 64) :
    w.engine.services.Fresh :=
  w.fresh_of_named h.counted h.named hstores

/-- What is stored under the identifier of an aggregate. -/
theorem Backed.stored {w : World} (h : w.Backed) (flow : UInt64) (p : Pending)
    (hp : w.engine.pending flow = some p) : w.engine.services.stored? p.frame ≠ none := by
  rcases h.held flow with ⟨members, hholds, _⟩
  rw [hp] at hholds
  rcases hholds with ⟨_, _, stored, _, hstored, _⟩
  rw [hstored]
  exact Option.some_ne_none stored

theorem backed_start (setup : Setup) : (start setup).Backed where
  ready := ⟨rfl, List.nodup_nil, rfl⟩
  counted := rfl
  named := fun _ h => absurd rfl h
  owned := fun _ h => absurd rfl h
  apart := fun _ _ _ _ h => by cases h
  held := fun _ => ⟨[], rfl, rfl⟩
  balanced := fun _ => Ledger.balanced_empty

/-- A call on one flow leaves an engine in which the books of the flow are in
    order, with the given segments waiting, and nothing outside of its aggregate
    was touched. -/
structure Calling (w : World) (flow : UInt64) (engine : Engine) (events : List Event)
    (members : List Segment) : Prop where
  others : ∀ g, g ≠ flow → engine.pending g = w.engine.pending g
  ready : engine.services.Ready
  outside : engine.services.outside (engine.pending flow)
    = w.engine.services.outside (w.engine.pending flow)
  /-- An aggregate keeps its identifier, and a new one has the next. -/
  frame : ∀ p', engine.pending flow = some p' →
    (∃ p, w.engine.pending flow = some p ∧ p'.frame = p.frame) ∨
    (p'.frame = w.engine.services.frames.storage.next ∧
      engine.services.frames.storage.next.number
        = w.engine.services.frames.storage.next.number + 1)
  holds : engine.services.Holds (engine.pending flow) members
  unentered : ∀ g, g ≠ flow → (w.next engine events).ledger g = w.ledger g
  waiting : ((w.next engine events).ledger flow).waiting = members.map Segment.frame
  balanced : ((w.next engine events).ledger flow).Balanced

namespace Calling

variable {w : World} {flow : UInt64} {engine : Engine} {events : List Event}
  {members : List Segment}

/-- The frame of another flow is outside of both aggregates. -/
theorem outside_other (c : w.Calling flow engine events members) (h : w.Backed) (g : UInt64)
    (p : Pending) (hg : g ≠ flow) (hp : w.engine.pending g = some p) :
    engine.services.outside (engine.pending flow) p.frame
      = w.engine.services.stored? p.frame := by
  rw [c.outside]
  refine Services.outside_of_ne _ _ _ (fun q hq hsame => ?_)
  exact hg (h.apart flow g q p hq hp hsame).symm

/-- The flow has not taken over the frame of another one. -/
theorem frame_ne (c : w.Calling flow engine events members) (h : w.Backed) (g : UInt64)
    (p p' : Pending) (hg : g ≠ flow) (hp : w.engine.pending g = some p)
    (hp' : engine.pending flow = some p') : p'.frame ≠ p.frame := by
  refine Services.ne_of_outside_ne_none engine.services _ p.frame ?_ p' hp'
  rw [c.outside_other h g p hg hp]
  exact h.stored g p hp

/-- For another flow nothing has happened. -/
theorem stored_other (c : w.Calling flow engine events members) (h : w.Backed) (g : UInt64)
    (p : Pending) (hg : g ≠ flow) (hp : w.engine.pending g = some p) :
    engine.services.stored? p.frame = w.engine.services.stored? p.frame := by
  rw [← c.outside_other h g p hg hp, Services.outside_of_ne]
  exact fun p' hp' => c.frame_ne h g p p' hg hp hp'

/-- What is stored afterwards is the frame of the flow, or it was stored before
    and for another one. -/
theorem stored_cases (c : w.Calling flow engine events members) (id : FrameId)
    (hid : engine.services.stored? id ≠ none) :
    (∃ p', engine.pending flow = some p' ∧ p'.frame = id) ∨
      (w.engine.services.stored? id ≠ none ∧
        ∀ p, w.engine.pending flow = some p → p.frame ≠ id) := by
  by_cases hnew : ∃ p', engine.pending flow = some p' ∧ p'.frame = id
  · exact Or.inl hnew
  · refine Or.inr ?_
    have hout : w.engine.services.outside (w.engine.pending flow) id ≠ none := by
      rw [← c.outside, Services.outside_of_ne _ _ _ (fun p' hp' hsame => hnew ⟨p', hp', hsame⟩)]
      exact hid
    have hne := Services.ne_of_outside_ne_none _ _ _ hout
    rw [Services.outside_of_ne _ _ _ hne] at hout
    exact ⟨hout, hne⟩

/-- The frame of the flow has an identifier that was given out. -/
theorem frame_lt (c : w.Calling flow engine events members) (h : w.Backed)
    (hstores : w.stores < 2 ^ 64) (p' : Pending) (hp' : engine.pending flow = some p') :
    p'.frame.number.toNat < (w.next engine events).stores := by
  have hle : w.stores ≤ (w.next engine events).stores := Nat.le_add_right _ _
  rcases c.frame p' hp' with ⟨p, hp, hsame⟩ | ⟨hnext, hcount⟩
  · rw [hsame]
    exact Nat.lt_of_lt_of_le (h.named p.frame (h.stored flow p hp)) hle
  · -- The frame has just been stored, and that was counted.
    have hcounted : w.engine.services.frames.storage.next.number.toNat = w.stores := by
      rw [show w.engine.services.frames.storage.next.number = _ from h.counted,
        UInt64.toNat_ofNat_of_lt' hstores]
    have hone : (w.next engine events).stores = w.stores + 1 := by
      simp only [next, nextFrame, hcount, UInt64.add_comm _ (1 : UInt64),
        UInt64.add_sub_cancel]
      rfl
    rw [hnext, hcounted, hone]
    exact Nat.lt_succ_self _

/-- A call on one flow keeps what is backed. -/
theorem backed (c : w.Calling flow engine events members) (h : w.Backed)
    (hstores : w.stores < 2 ^ 64) : (w.next engine events).Backed := by
  constructor
  case ready => exact c.ready
  case counted => exact nextFrame_next w engine events h.counted
  case named =>
    intro id hid
    rcases c.stored_cases id hid with ⟨p', hp', rfl⟩ | ⟨hold, _⟩
    · exact c.frame_lt h hstores p' hp'
    · exact Nat.lt_of_lt_of_le (h.named id hold) (Nat.le_add_right _ _)
  case owned =>
    intro id hid
    rcases c.stored_cases id hid with ⟨p', hp', hframe⟩ | ⟨hold, hne⟩
    · exact ⟨flow, p', hp', hframe⟩
    · rcases h.owned id hold with ⟨g, p, hp, hframe⟩
      have hg : g ≠ flow := fun hg => hne p (hg ▸ hp) hframe
      exact ⟨g, p, (c.others g hg).trans hp, hframe⟩
  case apart =>
    intro g g' p p' hp hp' hsame
    -- Of the flow it is known that its frame is no other flow's, whether it is old or new.
    by_cases hg : g = flow <;> by_cases hg' : g' = flow
    · rw [hg, hg']
    · subst hg
      exact absurd hsame (c.frame_ne h g' p' p hg' ((c.others g' hg').symm.trans hp') hp)
    · subst hg'
      exact absurd hsame.symm (c.frame_ne h g p p' hg ((c.others g hg).symm.trans hp) hp')
    · exact h.apart g g' p p' ((c.others g hg).symm.trans hp) ((c.others g' hg').symm.trans hp')
        hsame
  case held =>
    intro g
    by_cases hg : g = flow
    · subst hg
      exact ⟨members, c.holds, c.waiting⟩
    · rcases h.held g with ⟨waiting, hwaiting, hbooks⟩
      refine ⟨waiting, ?_, by rw [c.unentered g hg, hbooks]⟩
      show engine.services.Holds (engine.pending g) waiting
      rw [c.others g hg]
      rcases hp : w.engine.pending g with _ | p
      · rw [hp] at hwaiting
        exact hwaiting
      · rw [hp] at hwaiting
        rcases hwaiting with ⟨first, rest, stored, rfl, hget, m⟩
        exact ⟨first, rest, stored, rfl, (c.stored_other h g p hg hp).trans hget, m⟩
  case balanced =>
    intro g
    by_cases hg : g = flow
    · subst hg
      exact c.balanced
    · rw [c.unentered g hg]
      exact h.balanced g

end Calling

/-- What leaves storage and all that is pending alone keeps what is backed. -/
theorem Backed.idle {w : World} (h : w.Backed) (engine : Engine) (events : List Event)
    (hpending : ∀ g, engine.pending g = w.engine.pending g)
    (hstorage : engine.services.frames.storage = w.engine.services.frames.storage)
    (hspares : engine.services.SparesTakes)
    (hledger : ∀ g, (w.next engine events).ledger g = w.ledger g) :
    (w.next engine events).Backed := by
  -- Only the outages may have changed, and no promise is made about these but
  -- that nothing keeps a frame from being taken out.
  have hstored : engine.services.stored? = w.engine.services.stored? := by
    unfold Services.stored?
    rw [hstorage]
  constructor
  case ready => exact ⟨hspares, hstorage ▸ h.ready.sound⟩
  case counted => exact nextFrame_next w engine events h.counted
  case named =>
    intro id hid
    exact Nat.lt_of_lt_of_le (h.named id (hstored ▸ hid)) (Nat.le_add_right _ _)
  case owned =>
    intro id hid
    rcases h.owned id (hstored ▸ hid) with ⟨flow, p, hp, hframe⟩
    exact ⟨flow, p, (hpending flow).trans hp, hframe⟩
  case apart =>
    intro g g' p p' hp hp'
    exact h.apart g g' p p' ((hpending g).symm.trans hp) ((hpending g').symm.trans hp')
  case held =>
    intro g
    rcases h.held g with ⟨members, hholds, hbooks⟩
    refine ⟨members, ?_, by rw [hledger g, hbooks]⟩
    show engine.services.Holds (engine.pending g) members
    rw [hpending g]
    rcases hp : w.engine.pending g with _ | p
    · rw [hp] at hholds
      exact hholds
    · rw [hp] at hholds
      simp only [Services.Holds, hstored]
      exact hholds
  case balanced => exact fun g => hledger g ▸ h.balanced g

/-- What a flow makes of a segment is accounted for. -/
theorem turn_accounts (engine : Engine) (flow : UInt64) (segment : Segment) (policy : Policy)
    (extras : Extras) (members : List Segment) (ready : engine.services.Ready)
    (fresh : engine.services.Fresh) (holds : engine.services.Holds (engine.pending flow) members)
    (genuine : segment.Genuine) :
    ∃ members', (engine.turn flow segment policy extras).Accounts engine.services
      (engine.pending flow) segment members members' := by
  unfold Engine.turn
  rcases hp : engine.pending flow with _ | p
  · rw [hp] at holds
    rw [show members = [] from holds]
    exact engine.services.onIdle_accounts flow segment policy extras ready fresh genuine
  · rw [hp] at holds
    exact engine.services.onPending_accounts flow p segment policy extras ready fresh holds genuine

/-- A segment that is taken up is a call on its flow. -/
theorem Backed.calling_offer {w : World} (h : w.Backed) (hstores : w.stores < 2 ^ 64)
    (flow : UInt64) (frame : Frame) (policy : Policy) (extras : Extras) (segment : Segment)
    (hsegment : frame.segment? = some segment) :
    ∃ members', w.Calling flow (w.engine.offer flow frame policy extras).2
      [.offered flow frame (w.engine.offer flow frame policy extras).1] members' := by
  rcases w.engine.offer_accepted flow frame policy extras segment hsegment with
    ⟨houtput, hpending, hservices⟩
  rcases (Segment.ofFrame_eq_ok_iff frame segment).mp
    ((frame.segment?_eq_some_iff segment).mp hsegment).2 with ⟨hframe, genuine⟩
  -- The segments that wait by the books are those that the turn starts from.
  rcases h.held flow with ⟨members, hholds, hwaiting⟩
  rcases turn_accounts w.engine flow segment policy extras members h.ready (h.fresh hstores)
    hholds genuine with ⟨members', haccounts⟩
  have hflow := hpending flow
  rw [if_pos rfl] at hflow
  have hbooks := haccounts.outcome.balanced genuine hholds.genuine (w.ledger flow)
    (h.balanced flow) hwaiting
  have hledger : (w.next (w.engine.offer flow frame policy extras).2
      [.offered flow frame (w.engine.offer flow frame policy extras).1]).ledger flow
      = ((w.ledger flow).enter segment.frame
          (w.engine.turn flow segment policy extras).output.disposition).handOut
        (w.engine.turn flow segment policy extras).output.frames
        (w.engine.turn flow segment policy extras).output.aggregate
        ((w.ledger flow).closes segment.frame
          (w.engine.turn flow segment policy extras).output) := by
    rw [ledger_next_singleton, houtput, hframe]
    simp only [Ledger.after, if_true]
  refine ⟨members', ?_⟩
  constructor
  case others => exact fun g hg => by rw [hpending, if_neg hg]
  case ready =>
    rw [hservices]
    exact haccounts.ready
  case outside =>
    rw [hservices, hflow]
    exact haccounts.outside
  case frame =>
    rw [hservices, hflow]
    exact haccounts.frame
  case holds =>
    rw [hservices, hflow]
    exact haccounts.holds
  case unentered =>
    intro g hg
    rw [ledger_next_singleton, Ledger.after, if_neg (Ne.symm hg)]
  case waiting =>
    rw [hledger]
    exact hbooks.2
  case balanced =>
    rw [hledger]
    exact hbooks.1

theorem Backed.offer {w : World} (h : w.Backed) (hstores : w.stores < 2 ^ 64) (flow : UInt64)
    (frame : Frame) (policy : Policy) (extras : Extras) :
    (w.step (.offer flow frame policy extras)).Backed := by
  simp only [step]
  rcases hsegment : frame.segment? with _ | segment
  · rcases w.engine.offer_refused flow frame policy extras hsegment with ⟨houtput, hleft⟩
    have hledger : ∀ g, (w.next (w.engine.offer flow frame policy extras).2
        [.offered flow frame (w.engine.offer flow frame policy extras).1]).ledger g
        = w.ledger g := by
      intro g
      rw [ledger_next_singleton, houtput]
      simp [Ledger.after, Ledger.enter, Ledger.handOut, Output.handBack, Output.frames]
    rcases hleft with heq | ⟨notice, heq⟩
    all_goals
      rw [heq] at hledger ⊢
      exact h.idle _ _ (fun _ => rfl) rfl h.ready.spares hledger
  · rcases h.calling_offer hstores flow frame policy extras segment hsegment with ⟨_, hcalling⟩
    exact hcalling.backed h hstores

/-- Closing what is pending on a flow is a call on it. -/
theorem Backed.calling_close {w : World} (h : w.Backed) (flow : UInt64)
    (p : Pending) (hp : w.engine.pending flow = some p) (s : Services)
    (hs : s.frames = w.engine.services.frames) (engine : Engine) (events : List Event)
    (hpending : ∀ g, engine.pending g = if g = flow then none else w.engine.pending g)
    (hframes : engine.services.frames = (s.closeAggregate p).2.frames)
    (hledger : ∀ g, g ≠ flow → (w.next engine events).ledger g = w.ledger g)
    (hsettled : ∀ aggregate, (s.closeAggregate p).1 = some aggregate →
      (w.next engine events).ledger flow = (w.ledger flow).settle.handOut [aggregate.frame]
        (some aggregate) (w.ledger flow).waiting) :
    w.Calling flow engine events [] := by
  rcases h.held flow with ⟨members, hholds, hwaiting⟩
  have hgenuine := hholds.genuine
  rw [hp] at hholds
  -- Closing never fails, so the flow always gets its aggregate.
  rcases s.closeAggregate_spec p (h.ready.of_frames_eq hs) (hholds.of_frames_eq hs) with
    ⟨aggregate, hclosed, hclosing, hready, _, hleft⟩
  have hnone := hpending flow
  rw [if_pos rfl] at hnone
  constructor
  case others => exact fun g hg => by rw [hpending, if_neg hg]
  case ready => exact hready.of_frames_eq hframes
  case outside =>
    rw [hnone, Services.outside_none, Services.stored?_congr hframes, hleft, hp]
    exact Services.outside_congr (Services.stored?_congr hs) (some p)
  case frame =>
    intro p' hp'
    rw [hnone] at hp'
    cases hp'
  case holds =>
    rw [hnone]
    rfl
  case unentered => exact hledger
  case waiting =>
    rw [hsettled aggregate hclosed]
    rfl
  case balanced =>
    rw [hsettled aggregate hclosed]
    exact Ledger.balanced_closed (h.balanced flow) aggregate members hgenuine hwaiting hclosing

theorem Backed.calling_flush {w : World} (h : w.Backed) (flow : UInt64) (p : Pending)
    (hp : w.engine.pending flow = some p)
    (houtput : (w.engine.flush flow).1
      = .ofClosing (w.engine.flushed flow p).1 { flushAggregationDone := true })
    (hpending : ∀ g, (w.engine.flush flow).2.pending g
      = if g = flow then none else w.engine.pending g)
    (hservices : (w.engine.flush flow).2.services = (w.engine.flushed flow p).2) :
    w.Calling flow (w.engine.flush flow).2 [.flushed flow (w.engine.flush flow).1] [] := by
  refine h.calling_close flow p hp _ ?_ _ _ hpending (congrArg Services.frames hservices)
    (fun g hg => ?_) (fun aggregate hclosed => ?_)
  · simp only [Services.frames_note]
    split <;> rfl
  · rw [ledger_next_singleton, Ledger.after, if_neg (Ne.symm hg)]
  · have hflushed : (w.engine.flushed flow p).1 = some aggregate := hclosed
    rw [ledger_next_singleton, houtput, hflushed]
    simp [Ledger.after, Output.ofClosing, Output.frames]

theorem Backed.flush {w : World} (h : w.Backed) (hstores : w.stores < 2 ^ 64) (flow : UInt64) :
    (w.step (.flush flow)).Backed := by
  simp only [step]
  rcases w.engine.flush_cases flow with
    ⟨_, houtput, hpending, hservices⟩ | ⟨p, hp, houtput, hpending, hservices⟩
  · refine h.idle _ _ hpending (by rw [hservices]) (hservices ▸ h.ready.spares) (fun g => ?_)
    rw [ledger_next_singleton, houtput]
    simp [Ledger.after, Ledger.handOut, Output.frames]
  · exact (h.calling_flush flow p hp houtput hpending hservices).backed h hstores

theorem Backed.deliver {w : World} (h : w.Backed) (hstores : w.stores < 2 ^ 64) (index : Nat) :
    (w.step (.deliver index)).Backed := by
  simp only [step]
  rcases w.expiries[index]? with _ | expiry
  · exact h
  simp only
  rcases w.engine.expire_eq expiry with ⟨hsame, hframes, _⟩
  rcases w.engine.timeOut_cases expiry with
    ⟨_, hnone, hpending, hkept, _⟩ | ⟨p, hp, _, hclosed, hpending, hservices⟩
  · refine h.idle _ _ (fun g => (hsame g).trans (hpending g)) (by rw [hframes, hkept]) ?_
      (fun g => ?_)
    · rw [Services.SparesTakes, hframes, hkept]
      exact h.ready.spares
    · rw [ledger_next_singleton, hnone]
      simp [Ledger.after]
  · refine (h.calling_close expiry.flow p hp
      ((w.engine.services.count p.statistics .timeoutFlushes 1).note
        (.timeoutFlush expiry.flow p.segments)) rfl _ _
      (fun g => (hsame g).trans (hpending g)) ?_ (fun g hg => ?_)
      (fun aggregate haggregate => ?_)).backed h hstores
    · rw [hframes, hservices]
      rfl
    · rw [ledger_next_singleton, Ledger.after,
        if_neg (fun hc => hg hc.1.symm)]
    · have htimedOut : (w.engine.timedOut expiry p).1 = some aggregate := haggregate
      rw [ledger_next_singleton, hclosed, htimedOut]
      simp [Ledger.after]

/-- Every step keeps what is backed, as long as there are identifiers left. -/
theorem Backed.step {w : World} (h : w.Backed) (hstores : w.stores < 2 ^ 64) (s : Step) :
    (w.step s).Backed := by
  cases s with
  | offer flow frame policy extras => exact h.offer hstores flow frame policy extras
  | flush flow => exact h.flush hstores flow
  | deliver index => exact h.deliver hstores index
  | advance elapsed =>
      refine h.idle _ _ (fun _ => rfl) rfl h.ready.spares (fun g => ?_)
      rw [ledger_next_singleton, Ledger.after]
  | refuse store extend =>
      refine h.idle _ _ (fun _ => rfl) rfl rfl (fun g => ?_)
      rw [ledger_next, List.foldl_nil]

/-- Whatever happens, what is pending on every flow is backed, unless so many
    frames were stored that an identifier is given out twice. -/
theorem backed_run (setup : Setup) (steps : List Step)
    (hstores : (run setup steps).stores < 2 ^ 64) : (run setup steps).Backed := by
  refine run_induction setup steps (fun w => w.stores < 2 ^ 64 → w.Backed)
    (fun _ => backed_start setup) ?_ hstores
  intro w s hw hlt
  -- Stores are never taken back, so there were identifiers left all along.
  have hbefore := Nat.lt_of_le_of_lt (stores_le_step w s) hlt
  exact (hw hbefore).step hbefore s

end World

end ReceiveOffload
