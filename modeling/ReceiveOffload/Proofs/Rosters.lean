import ReceiveOffload.Proofs.Books
import ReceiveOffload.Proofs.Settlements
import ReceiveOffload.Proofs.Trials

/-!
# Rosters Under Trial

A roster says which segments the aggregates are made of, from what arrived and
from which aggregates stayed. The engine keeps nothing of the kind, and what it
does keep can go astray under trial: frames are lost, and others are left behind
in storage with nobody to take them out. Through all of that the roster is right.
The frame of each aggregate is stored, it was merged of the segments in the
roster, and no two flows share one.

This is the invariant that what is reported and what is remembered of an
aggregate are read off from. A trial either leaves the flows alone or is a call
on one of them, and a call settles what it does.

## Main definitions

* `Roster.Kept`: The aggregates are made of the segments in the roster.
* `Roster.Calling`: A call on one flow, as all the others see it.

## Theorems

* `Roster.Calling.kept`: A call on one flow keeps the roster right.
* `Roster.kept_run`: It is right in every run that stores fewer frames than there
  are identifiers.
-/

namespace ReceiveOffload

/-- What is pending and was left alone has the segments that it had. -/
theorem membersAfter_self {s : Services} {pending : Option Pending} {members : List Segment}
    (holds : s.Holds pending members) : membersAfter pending pending none members = members := by
  rcases pending with _ | p
  · exact (show members = [] from holds).symm
  · rfl

/-- The roster finds out about the segments that a call settles. -/
theorem Turn.Settles.membersAfter_eq {turn : Turn} {s : Services} {pending : Option Pending}
    {segment : Segment} {members members' : List Segment}
    (settles : turn.Settles s pending segment members members') (holds : s.Holds pending members)
    (fresh : s.Fresh) : membersAfter pending turn.flow (some segment) members = members' := by
  have hheld := settles.holds
  rcases hflow : turn.flow with _ | p'
  · rw [hflow] at hheld
    exact (show members' = [] from hheld).symm
  simp only [membersAfter]
  rcases settles.frame p' hflow with ⟨p, hp, hframe, hmembers⟩ | ⟨hframe, _, hmembers⟩
  · rw [hp, Option.map_some, hframe, if_pos rfl, hmembers]
  · -- A frame that is stored already cannot have the next identifier.
    rw [if_neg, hmembers]
    intro hsame
    rcases Option.map_eq_some_iff.mp hsame with ⟨p, hp, hnext⟩
    rw [hp] at holds
    rcases holds with ⟨_, _, stored, _, hstored, _⟩
    rw [hnext, hframe, fresh] at hstored
    cases hstored

namespace Roster

/-- The aggregates are stored, each under an identifier of its own, and are made
    of the segments in the roster. -/
structure Kept (r : Roster) : Prop where
  counted : r.world.nextFrame = UInt64.ofNat r.world.stores
  /-- Identifiers were given out in order. -/
  named : ∀ id, r.world.engine.services.stored? id ≠ none → id.number.toNat < r.world.stores
  apart : ∀ flow flow' p p', r.world.engine.pending flow = some p →
    r.world.engine.pending flow' = some p' → p.frame = p'.frame → flow = flow'
  held : ∀ flow, r.world.engine.services.Holds (r.world.engine.pending flow) (r.members flow)
  unpushed : ∀ flow, ∀ s ∈ r.members flow, s.headers.pushes = false

variable {r : Roster}

theorem Kept.fresh (h : r.Kept) (hstores : r.world.stores < 2 ^ 64) :
    r.world.engine.services.Fresh :=
  r.world.fresh_of_named h.counted h.named hstores

/-- What is stored under the identifier of an aggregate. -/
theorem Kept.stored (h : r.Kept) (flow : UInt64) (p : Pending)
    (hp : r.world.engine.pending flow = some p) :
    r.world.engine.services.stored? p.frame ≠ none := by
  have hheld := h.held flow
  rw [hp] at hheld
  rcases hheld with ⟨_, _, stored, _, hstored, _⟩
  rw [hstored]
  exact Option.some_ne_none stored

theorem kept_start (setup : Setup) : ({ world := .start setup } : Roster).Kept where
  counted := rfl
  named := fun _ h => absurd rfl h
  apart := fun _ _ _ _ h => by cases h
  held := fun _ => rfl
  unpushed := fun _ _ h => absurd h List.not_mem_nil

/-- Where neither the flows nor what is stored have changed, the roster stays as
    it is. -/
theorem Kept.unchanged (h : r.Kept) (engine : Engine) (events : List Event)
    (hpending : ∀ g, engine.pending g = r.world.engine.pending g)
    (hstorage : engine.services.frames.storage = r.world.engine.services.frames.storage) :
    (⟨r.world.next engine events, r.members⟩ : Roster).Kept := by
  have hstored : ∀ id, engine.services.stored? id = r.world.engine.services.stored? id := by
    intro id
    unfold Services.stored?
    rw [hstorage]
  constructor
  case counted => exact World.nextFrame_next _ engine events h.counted
  case named =>
    intro id hid
    exact Nat.lt_of_lt_of_le (h.named id (hstored id ▸ hid)) (Nat.le_add_right _ _)
  case apart =>
    intro g g' p p' hp hp'
    exact h.apart g g' p p' ((hpending g).symm.trans hp) ((hpending g').symm.trans hp')
  case held =>
    intro g
    have hheld := h.held g
    simp only [World.next, hpending g]
    rcases hp : r.world.engine.pending g with _ | p
    all_goals rw [hp] at hheld
    · exact hheld
    · simp only [Services.Holds, hstored]
      exact hheld
  case unpushed => exact h.unpushed

/-- A call on one flow leaves an engine in which the flow has the given segments,
    and what belongs to others was left alone. -/
structure Calling (r : Roster) (flow : UInt64) (engine : Engine) (members : List Segment) :
    Prop where
  others : ∀ g, g ≠ flow → engine.pending g = r.world.engine.pending g
  keeps : r.world.engine.services.Keeps
    ((r.world.engine.pending flow).map Pending.frame) engine.services
  holds : engine.services.Holds (engine.pending flow) members
  unpushed : ∀ s ∈ members, s.headers.pushes = false
  /-- An aggregate keeps its identifier, and a new one has the next. -/
  frame : ∀ p', engine.pending flow = some p' →
    (∃ p, r.world.engine.pending flow = some p ∧ p'.frame = p.frame) ∨
    (p'.frame = r.world.engine.services.frames.storage.next ∧
      engine.services.frames.storage.next.number
        = r.world.engine.services.frames.storage.next.number + 1)

namespace Calling

variable {flow : UInt64} {engine : Engine} {members : List Segment}

/-- For another flow nothing has happened. -/
theorem stored_other (c : r.Calling flow engine members) (h : r.Kept) (g : UInt64) (p : Pending)
    (hg : g ≠ flow) (hp : r.world.engine.pending g = some p) :
    engine.services.stored? p.frame = r.world.engine.services.stored? p.frame := by
  refine c.keeps.kept p.frame ?_ (h.stored g p hp)
  intro hsame
  rcases Option.map_eq_some_iff.mp hsame with ⟨q, hq, hframe⟩
  exact hg (h.apart flow g q p hq hp hframe).symm

/-- The flow has not taken over the frame of another one. -/
theorem frame_ne (c : r.Calling flow engine members) (h : r.Kept)
    (hstores : r.world.stores < 2 ^ 64) (g : UInt64) (p p' : Pending) (hg : g ≠ flow)
    (hp : r.world.engine.pending g = some p) (hp' : engine.pending flow = some p') :
    p'.frame ≠ p.frame := by
  intro hsame
  rcases c.frame p' hp' with ⟨q, hq, hframe⟩ | ⟨hnext, _⟩
  · exact hg (h.apart flow g q p hq hp (hframe.symm.trans hsame)).symm
  · -- A new frame has an identifier that was free.
    have hstored := h.stored g p hp
    rw [← hsame, hnext] at hstored
    exact hstored (h.fresh hstores)

/-- A call on one flow keeps the roster right. -/
theorem kept (c : r.Calling flow engine members) (h : r.Kept) (hstores : r.world.stores < 2 ^ 64)
    (events : List Event) :
    (⟨r.world.next engine events, fun g => if g = flow then members else r.members g⟩ :
      Roster).Kept := by
  constructor
  case counted => exact World.nextFrame_next _ engine events h.counted
  case named =>
    intro id hid
    rcases c.keeps.given id hid with hold | ⟨hnext, hcount⟩
    · exact Nat.lt_of_lt_of_le (h.named id hold) (Nat.le_add_right _ _)
    · -- What has just been stored was counted.
      have hcounted : id.number.toNat = r.world.stores := by
        rw [hnext, show r.world.engine.services.frames.storage.next.number = _ from h.counted,
          UInt64.toNat_ofNat_of_lt' hstores]
      have hone : (r.world.next engine events).stores = r.world.stores + 1 := by
        simp only [World.next, World.nextFrame, hcount, UInt64.add_comm _ (1 : UInt64),
          UInt64.add_sub_cancel]
        rfl
      rw [hcounted, hone]
      exact Nat.lt_succ_self _
  case apart =>
    intro g g' p p' hp hp' hsame
    by_cases hg : g = flow <;> by_cases hg' : g' = flow
    · rw [hg, hg']
    · subst hg
      exact absurd hsame (c.frame_ne h hstores g' p' p hg' ((c.others g' hg').symm.trans hp') hp)
    · subst hg'
      exact absurd hsame.symm
        (c.frame_ne h hstores g p p' hg ((c.others g hg).symm.trans hp) hp')
    · exact h.apart g g' p p' ((c.others g hg).symm.trans hp) ((c.others g' hg').symm.trans hp')
        hsame
  case held =>
    intro g
    by_cases hg : g = flow
    · subst hg
      simp only [World.next, if_true]
      exact c.holds
    · have hheld := h.held g
      simp only [World.next, if_neg hg, c.others g hg]
      rcases hp : r.world.engine.pending g with _ | p
      all_goals rw [hp] at hheld
      · exact hheld
      · simp only [Services.Holds, c.stored_other h g p hg hp]
        exact hheld
  case unpushed =>
    intro g
    simp only
    by_cases hg : g = flow
    · rw [if_pos hg]
      exact c.unpushed
    · rw [if_neg hg]
      exact h.unpushed g

end Calling

/-- What a trial comes to, from what it leaves of the world and of each flow. -/
theorem endure_eq (r : Roster) (trial : Trial) (world : World) (members : UInt64 → List Segment)
    (hworld : r.world.endure trial = world)
    (hmembers : ∀ g, membersAfter (r.world.engine.pending g) (world.engine.pending g)
      (trial.arrival? g) (r.members g) = members g) : r.endure trial = ⟨world, members⟩ := by
  subst hworld
  unfold endure
  rw [funext hmembers]

/-- A trial that leaves the flows and what is stored alone. -/
theorem Kept.endure_unchanged (h : r.Kept) (trial : Trial) (engine : Engine)
    (events : List Event) (hworld : r.world.endure trial = r.world.next engine events)
    (hpending : ∀ g, engine.pending g = r.world.engine.pending g)
    (hstorage : engine.services.frames.storage = r.world.engine.services.frames.storage)
    (harrival : ∀ g, trial.arrival? g = none) : (r.endure trial).Kept := by
  rw [r.endure_eq trial _ r.members hworld]
  · exact h.unchanged engine events hpending hstorage
  · intro g
    have hsame : (r.world.next engine events).engine.pending g = r.world.engine.pending g :=
      hpending g
    rw [hsame, harrival g]
    exact membersAfter_self (h.held g)

/-- A trial that is a call on one flow. -/
theorem Calling.endure {flow : UInt64} {engine : Engine} {members : List Segment}
    (c : r.Calling flow engine members) (h : r.Kept) (hstores : r.world.stores < 2 ^ 64)
    (trial : Trial) (events : List Event)
    (hworld : r.world.endure trial = r.world.next engine events)
    (harrival : ∀ g, g ≠ flow → trial.arrival? g = none)
    (hmembers : membersAfter (r.world.engine.pending flow) (engine.pending flow)
      (trial.arrival? flow) (r.members flow) = members) :
    (r.endure trial).members flow = members ∧ (r.endure trial).Kept := by
  have heq := r.endure_eq trial _ (fun g => if g = flow then members else r.members g) hworld ?_
  · rw [heq]
    exact ⟨if_pos rfl, c.kept h hstores events⟩
  · intro g
    by_cases hg : g = flow
    · rw [if_pos hg, hg]
      exact hmembers
    · have hsame : (r.world.next engine events).engine.pending g = r.world.engine.pending g :=
        c.others g hg
      rw [if_neg hg, hsame, harrival g hg]
      exact membersAfter_self (h.held g)

/-- Offering a segment that is taken up is a call on its flow that settles what
    becomes of the segments. -/
theorem Kept.offer (h : r.Kept) (hstores : r.world.stores < 2 ^ 64) (flow : UInt64)
    (frame : Frame) (policy : Policy) (extras : Extras) (segment : Segment)
    (hsegment : frame.segment? = some segment) :
    (r.world.engine.turn flow segment policy extras).Settles r.world.engine.services
        (r.world.engine.pending flow) segment (r.members flow)
        ((r.endure (.step (.offer flow frame policy extras))).members flow) ∧
      (r.endure (.step (.offer flow frame policy extras))).Kept := by
  have hfresh := h.fresh hstores
  have hheld := h.held flow
  have hgenuine := ((Segment.ofFrame_eq_ok_iff frame segment).mp
    ((frame.segment?_eq_some_iff segment).mp hsegment).2).2
  have hsettles : ∃ members', (r.world.engine.turn flow segment policy extras).Settles
      r.world.engine.services (r.world.engine.pending flow) segment (r.members flow) members' := by
    unfold Engine.turn
    rcases hpending : r.world.engine.pending flow with _ | p
    · rw [hpending] at hheld
      rw [show r.members flow = [] from hheld]
      exact Services.onIdle_settles _ flow segment policy extras hfresh hgenuine
    · rw [hpending] at hheld
      exact Services.onPending_settles _ flow p segment policy extras hfresh hheld hgenuine
  rcases hsettles with ⟨members', hsettles⟩
  rcases r.world.engine.offer_accepted flow frame policy extras segment hsegment with
    ⟨_, hflows, hservices⟩
  have hflow := hflows flow
  rw [if_pos rfl] at hflow
  have hcalling : r.Calling flow (r.world.engine.offer flow frame policy extras).2 members' := by
    constructor
    case others =>
      intro g hg
      rw [hflows, if_neg hg]
    case keeps =>
      rw [hservices]
      exact hsettles.keeps
    case holds =>
      rw [hflow, hservices]
      exact hsettles.holds
    case unpushed =>
      intro t ht
      rcases hsettles.unpushed t ht with hold | hnew
      · exact h.unpushed flow t hold
      · exact hnew
    case frame =>
      intro p' hp'
      rw [hflow] at hp'
      rw [hservices]
      rcases hsettles.frame p' hp' with ⟨p, hp, hframe, _⟩ | ⟨hframe, hcount, _⟩
      · exact Or.inl ⟨p, hp, hframe⟩
      · exact Or.inr ⟨hframe, hcount⟩
  have hkept := hcalling.endure h hstores (.step (.offer flow frame policy extras))
    [.offered flow frame (r.world.engine.offer flow frame policy extras).1] rfl ?_ ?_
  · rw [hkept.1]
    exact ⟨hsettles, hkept.2⟩
  · intro g hg
    exact if_neg (fun hsame => hg hsame.symm)
  · simp only [Trial.arrival?, if_true, hsegment, hflow]
    exact hsettles.membersAfter_eq hheld hfresh

/-- Closing what is pending on a flow leaves it without segments. -/
theorem Kept.close (h : r.Kept) (hstores : r.world.stores < 2 ^ 64) (flow : UInt64)
    (p : Pending) (engine : Engine) (trial : Trial) (events : List Event)
    (closed : Option Aggregate × Services)
    (hworld : r.world.endure trial = r.world.next engine events)
    (hp : r.world.engine.pending flow = some p)
    (hpending : ∀ g, engine.pending g = if g = flow then none else r.world.engine.pending g)
    (hclosed : ∃ s : Services, closed = s.closeAggregate p ∧
      s.frames = r.world.engine.services.frames)
    (hafter : engine.services.frames = closed.2.frames)
    (harrival : ∀ g, trial.arrival? g = none) : (r.endure trial).Kept := by
  have hheld := h.held flow
  rw [hp] at hheld
  rcases hclosed with ⟨s, rfl, hbefore⟩
  rcases s.closeAggregate_yields p (hheld.of_frames_eq hbefore) with ⟨_, hspares⟩
  have hnone : engine.pending flow = none := (hpending flow).trans (if_pos rfl)
  have hcalling : r.Calling flow engine [] := by
    constructor
    case others =>
      intro g hg
      rw [hpending, if_neg hg]
    case keeps =>
      -- Before and after closing there are only notes and counts and timers.
      have hsame : r.world.engine.services.Spares (some p.frame) s :=
        .of_storage_eq (congrArg FrameDepot.storage hbefore)
      rw [hp]
      exact (hsame.then hspares.keeps).of_frames_eq hafter
    case holds =>
      rw [hnone]
      rfl
    case unpushed => exact fun t ht => absurd ht List.not_mem_nil
    case frame =>
      intro p' hp'
      rw [hnone] at hp'
      cases hp'
  refine (hcalling.endure h hstores trial events hworld (fun g _ => harrival g) ?_).2
  rw [hnone]
  rfl

/-- A frame that is refused leaves a notice at most. -/
theorem Kept.refuse (h : r.Kept) (flow : UInt64) (frame : Frame) (policy : Policy)
    (extras : Extras) (hsegment : frame.segment? = none) :
    (r.endure (.step (.offer flow frame policy extras))).Kept := by
  have harrival : ∀ g, (Trial.step (.offer flow frame policy extras)).arrival? g = none := by
    intro g
    simp only [Trial.arrival?, hsegment, ite_self]
  have hworld : ∀ engine : Engine, (r.world.engine.offer flow frame policy extras).2 = engine →
      r.world.endure (.step (.offer flow frame policy extras)) = r.world.next engine
        [.offered flow frame (r.world.engine.offer flow frame policy extras).1] := by
    intro engine heq
    rw [← heq]
    rfl
  rcases (r.world.engine.offer_refused flow frame policy extras hsegment).2 with
    heq | ⟨cause, heq⟩
  · exact h.endure_unchanged _ _ _ (hworld _ heq) (fun _ => rfl) rfl harrival
  · exact h.endure_unchanged _ _ _ (hworld _ heq) (fun _ => rfl) rfl harrival

theorem Kept.flush (h : r.Kept) (hstores : r.world.stores < 2 ^ 64) (flow : UInt64) :
    (r.endure (.step (.flush flow))).Kept := by
  rcases r.world.engine.flush_cases flow with ⟨_, _, hpending, hservices⟩ |
    ⟨p, hp, _, hpending, hservices⟩
  · exact h.endure_unchanged _ (r.world.engine.flush flow).2 _ rfl hpending
      (by rw [hservices]) (fun _ => rfl)
  · refine h.close hstores flow p (r.world.engine.flush flow).2 _ _
      (r.world.engine.flushed flow p) rfl hp hpending ⟨_, rfl, ?_⟩
      (congrArg Services.frames hservices) (fun _ => rfl)
    -- Whether the request is counted makes no difference.
    split <;> rfl

theorem Kept.deliver (h : r.Kept) (hstores : r.world.stores < 2 ^ 64) (index : Nat) :
    (r.endure (.step (.deliver index))).Kept := by
  rcases hexpiry : r.world.expiries[index]? with _ | expiry
  · -- Nothing was handed out under this number.
    have hworld : r.world.endure (.step (.deliver index)) = r.world := by
      simp only [World.endure, World.step, hexpiry]
    rw [r.endure_eq _ r.world r.members hworld (fun g => membersAfter_self (h.held g))]
    exact h
  have hworld : r.world.endure (.step (.deliver index))
      = r.world.next (r.world.engine.expire expiry).2
        [.delivered expiry (r.world.engine.timeOut expiry).1] := by
    simp only [World.endure, World.step, hexpiry]
  rcases r.world.engine.expire_eq expiry with ⟨hflows, hframes, _⟩
  rcases r.world.engine.timeOut_cases expiry with ⟨_, _, hpending, hsame, _⟩ |
    ⟨p, hp, _, _, hpending, hservices⟩
  · exact h.endure_unchanged _ _ _ hworld (fun g => (hflows g).trans (hpending g))
      (by rw [hframes, hsame]) (fun _ => rfl)
  · exact h.close hstores expiry.flow p _ _ _ (r.world.engine.timedOut expiry p) hworld hp
      (fun g => (hflows g).trans (hpending g)) ⟨_, rfl, rfl⟩
      (hframes.trans (by rw [hservices]; rfl)) (fun _ => rfl)

/-- A trial keeps the roster right. -/
theorem Kept.endure (h : r.Kept) (hstores : r.world.stores < 2 ^ 64) (trial : Trial) :
    (r.endure trial).Kept := by
  rcases trial with step | outages | timers
  · cases step with
    | offer flow frame policy extras =>
        rcases hsegment : frame.segment? with _ | segment
        · exact h.refuse flow frame policy extras hsegment
        · exact (h.offer hstores flow frame policy extras segment hsegment).2
    | flush flow => exact h.flush hstores flow
    | advance elapsed =>
        exact h.endure_unchanged _ _ _ rfl (fun _ => rfl) rfl (fun _ => rfl)
    | deliver index => exact h.deliver hstores index
    | refuse store extend =>
        exact h.endure_unchanged _ _ _ rfl (fun _ => rfl) rfl (fun _ => rfl)
  · exact h.endure_unchanged _ _ _ rfl (fun _ => rfl) rfl (fun _ => rfl)
  · exact h.endure_unchanged _ _ _ rfl (fun _ => rfl) rfl (fun _ => rfl)

/-- The roster is right in every run that stores fewer frames than there are
    identifiers. -/
theorem kept_run (setup : Setup) (trials : List Trial)
    (hstores : (run setup trials).world.stores < 2 ^ 64) : (run setup trials).Kept := by
  refine run_induction setup trials (fun r => r.world.stores < 2 ^ 64 → r.Kept)
    (fun _ => kept_start setup) ?_ hstores
  intro r trial hr hlt
  -- Stores are never taken back, so there were identifiers left all along.
  have hbefore := Nat.lt_of_le_of_lt (r.world.stores_le_endure trial) hlt
  exact (hr hbefore).endure hbefore trial

end Roster

end ReceiveOffload
