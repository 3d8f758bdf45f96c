import ReceiveOffload.Proofs.Announcements
import ReceiveOffload.Proofs.Dossiers

/-!
# Who Chooses the Checksum

Every segment comes with extras, and one of them says whether the TCP checksum of its
aggregate is to be complete. An aggregate has many segments and one checksum, so only
one of them can be asked: the first. Its extras are put into the pending aggregate
when it is opened, nothing that follows touches them, and sealing goes by them.

Sealing is far away from the call that chose, and between them the aggregate passes
through any number of other calls. From outside only the last one is seen. What ties
them together is an invariant of the dossier, which knows the first offer of every
pending aggregate, and one fact about calls: what is handed out was pending.

## Main definitions

* `Aggregate.SealedWith`: The checksum was made as extras say.
* `Opened`: A pending aggregate has the extras of its first offer.

## Theorems

* `World.endure_sealedWith`: What a trial hands out is sealed as the pending aggregate
  asks.
* `Course.opened_after`: The offers that follow the first have no say.
* `Dossier.sealedWith_run`: In every run, an aggregate is sealed as its first offer
  asked.
-/

namespace ReceiveOffload

/-- The checksum was made as the extras say. That of a single segment is the one that
    arrived, and counts as complete. -/
def Aggregate.SealedWith (aggregate : Aggregate) (extras : Extras) : Prop :=
  aggregate.checksumComplete = (decide (aggregate.segments ≤ 1) || extras.fullChecksum)

/-- Sealing goes by the extras of the pending aggregate. -/
theorem Aggregate.ofStored_sealedWith (stored : Frame) (p : Pending) (aggregate : Aggregate)
    (h : Aggregate.ofStored stored p = .ok aggregate) : aggregate.SealedWith p.extras := by
  rcases hdecode : Headers.decode stored with cause | headers
  · simp only [ofStored, hdecode, bind, Except.bind, reduceCtorEq] at h
  -- A single segment is handed out as it came, and its checksum with it.
  by_cases halone : p.segments ≤ 1
  · rw [ofStored_alone stored p headers hdecode halone, Except.ok.injEq] at h
    rw [← h]
    rfl
  · rcases hseal : sealOctets headers stored.octets p with cause | b
    · simp only [ofStored, hdecode, halone, hseal, decide_false, if_false, bind, Except.bind,
        reduceCtorEq] at h
    · rw [ofStored_several stored p headers b hdecode halone hseal, Except.ok.injEq] at h
      rw [← h]
      rfl

namespace Services

/-- What is closed is sealed as its extras ask. -/
theorem closeAggregate_sealedWith (s : Services) (p : Pending) :
    ∀ a ∈ (s.closeAggregate p).1, a.SealedWith p.extras := by
  unfold closeAggregate
  rcases s.takeFrame p.frame with ⟨_ | stored, s₁⟩
  · exact fun _ ha => by cases ha
  · rcases hsealed : Aggregate.ofStored stored p with cause | aggregate
    all_goals simp only [hsealed]
    · exact fun _ ha => by cases ha
    · rintro a ha
      rw [Option.mem_some_iff] at ha
      exact ha ▸ Aggregate.ofStored_sealedWith stored p aggregate hsealed

/-- Segments that follow have no say in it. -/
theorem extras_appendSegment (s : Services) (p p' : Pending) (segment : Segment)
    (h : (s.appendSegment p segment).1 = .ok p') : p'.extras = p.extras := by
  unfold appendSegment at h
  rcases hextend : s.extendFrame p.frame segment.frame segment.headers.length with
    ⟨cause | length, s₁⟩
  all_goals simp only [hextend, logSize_eq, reduceCtorEq, Except.ok.injEq] at h
  · rw [← h]
    unfold Pending.sized
    split <;> rfl

theorem aggregate_onIdle (s : Services) (flow : UInt64) (segment : Segment) (policy : Policy)
    (extras : Extras) : (s.onIdle flow segment policy extras).output.aggregate = none := by
  unfold onIdle
  split
  · rcases s.armTimer (policy.timerSetup flow) with ⟨cause | timer, s₁⟩
    · rfl
    · simp only
      rcases s₁.openAggregate flow segment timer policy extras with ⟨_ | p, s₂⟩ <;> rfl
  · rfl

/-- What is handed out is sealed as the segment that opened it asks for. -/
theorem onPending_sealedWith (s : Services) (flow : UInt64) (p : Pending) (segment : Segment)
    (policy : Policy) (extras : Extras) :
    ∀ a ∈ (s.onPending flow p segment policy extras).output.aggregate, a.SealedWith p.extras := by
  rcases s.onPending_cases flow p segment policy extras with
    ⟨_, hturn⟩ | ⟨_, hturn⟩ | ⟨_, _, s', _, _, _, ⟨_, hturn⟩ | ⟨_, hturn⟩⟩
  all_goals rw [hturn]
  · unfold merge
    rcases s.appendSegment p segment with ⟨cause | p', s₁⟩ <;> exact fun _ ha => by cases ha
  -- Here the aggregate grows before it is closed, so its extras have to survive the growth.
  · unfold mergeThenClose
    have hextras := (s.releaseTimer p.timer).extras_appendSegment p
    rcases hresult : (s.releaseTimer p.timer).appendSegment p segment with ⟨cause | p', s₁⟩
    · exact fun _ ha => by cases ha
    · have hsealed := s₁.closeAggregate_sealedWith p'
      rw [hextras p' segment (by rw [hresult])] at hsealed
      exact hsealed
  · rw [aggregate_closeThenOpen]
    exact s'.closeAggregate_sealedWith p
  · rw [aggregate_closeThenPass]
    exact s'.closeAggregate_sealedWith p

end Services

namespace Engine

/-- An offer hands out nothing but what was pending, sealed as that asks. -/
theorem offer_sealedWith (engine : Engine) (flow : UInt64) (frame : Frame) (policy : Policy)
    (extras : Extras) : ∀ a ∈ (engine.offer flow frame policy extras).1.aggregate,
      ∃ p, engine.pending flow = some p ∧ a.SealedWith p.extras := by
  rcases hsegment : frame.segment? with _ | segment
  · rw [(engine.offer_refused flow frame policy extras hsegment).1]
    exact fun _ ha => by cases ha
  · rw [(engine.offer_accepted flow frame policy extras segment hsegment).1]
    unfold turn
    rcases hpending : engine.pending flow with _ | p
    · simp only
      rw [Services.aggregate_onIdle]
      exact fun _ ha => by cases ha
    · exact fun a ha =>
        ⟨p, rfl, engine.services.onPending_sealedWith flow p segment policy extras a ha⟩

/-- A flush hands out what was pending, sealed as that asks. -/
theorem flush_sealedWith (engine : Engine) (flow : UInt64) :
    ∀ a ∈ (engine.flush flow).1.aggregate,
      ∃ p, engine.pending flow = some p ∧ a.SealedWith p.extras := by
  rcases engine.flush_cases flow with ⟨_, houtput, _⟩ | ⟨p, hp, houtput, _⟩
  · rw [houtput]
    exact fun _ ha => by cases ha
  · rw [houtput]
    exact fun a ha => ⟨p, hp, Services.closeAggregate_sealedWith _ p a ha⟩

/-- An expiry hands out what was pending, sealed as that asks. -/
theorem timeOut_sealedWith (engine : Engine) (expiry : Expiry) :
    ∀ a ∈ (engine.timeOut expiry).1,
      ∃ p, engine.pending expiry.flow = some p ∧ a.SealedWith p.extras := by
  rcases engine.timeOut_cases expiry with ⟨_, haggregate, _⟩ | ⟨p, hp, _, haggregate, _⟩
  all_goals rw [haggregate]
  · exact fun _ ha => by cases ha
  · exact fun a ha => ⟨p, hp, Services.closeAggregate_sealedWith _ p a ha⟩

end Engine

/-- Whatever a trial hands out is sealed as the aggregate asks that was pending on its
    flow before. -/
theorem World.endure_sealedWith (w : World) (trial : Trial) :
    ∃ events, (w.endure trial).history = w.history ++ events ∧
      ∀ event ∈ events, ∀ e ∈ event.aggregate?,
        ∃ p, w.engine.pending e.1 = some p ∧ e.2.SealedWith p.extras := by
  -- An aggregate that is handed out is named with the flow of its call.
  have hnamed : ∀ (flow : UInt64) (aggregate : Option Aggregate),
      (∀ a ∈ aggregate, ∃ p, w.engine.pending flow = some p ∧ a.SealedWith p.extras) →
      ∀ e ∈ aggregate.map fun a => (flow, a),
        ∃ p, w.engine.pending e.1 = some p ∧ e.2.SealedWith p.extras := by
    intro flow aggregate hsealed e he
    rcases Option.map_eq_some_iff.mp he with ⟨a, ha, rfl⟩
    exact hsealed a ha
  rcases trial with step | outages | timers
  · cases step with
    | offer flow frame policy extras =>
        refine ⟨[_], rfl, fun event hevent => ?_⟩
        rw [List.mem_singleton.mp hevent]
        exact hnamed flow _ (w.engine.offer_sealedWith flow frame policy extras)
    | flush flow =>
        refine ⟨[_], rfl, fun event hevent => ?_⟩
        rw [List.mem_singleton.mp hevent]
        exact hnamed flow _ (w.engine.flush_sealedWith flow)
    | advance elapsed =>
        refine ⟨[_], rfl, fun event hevent => ?_⟩
        rw [List.mem_singleton.mp hevent]
        exact fun _ he => by cases he
    | deliver index =>
        rcases hexpiry : w.expiries[index]? with _ | expiry
        · exact ⟨[], by simp only [World.endure, World.step, hexpiry, List.append_nil],
            fun _ hevent => absurd hevent List.not_mem_nil⟩
        · refine ⟨[.delivered expiry (w.engine.timeOut expiry).1],
            by simp only [World.endure, World.step, hexpiry]; rfl, fun event hevent => ?_⟩
          rw [List.mem_singleton.mp hevent]
          exact hnamed expiry.flow _ (w.engine.timeOut_sealedWith expiry)
    | refuse store extend => exact ⟨[], rfl, fun _ hevent => absurd hevent List.not_mem_nil⟩
  · exact ⟨[], rfl, fun _ hevent => absurd hevent List.not_mem_nil⟩
  · exact ⟨[], rfl, fun _ hevent => absurd hevent List.not_mem_nil⟩

/-- The pending aggregate has the extras that its first offer came with. -/
def Opened (pending : Option Pending) (offers : List Offer) : Prop :=
  ∀ p, pending = some p → ∃ x ∈ offers.head?, x.extras = p.extras

theorem extras_opening (x : Offer) (timer : TimerId) (frame : FrameId) :
    (x.opening timer frame).sized.extras = x.extras := by
  unfold Pending.sized
  split <;> rfl

/-- A segment that is merged has no say in the extras. -/
theorem extras_extended (p : Pending) (segment : Segment) :
    (p.extended segment).sized.extras = p.extras := by
  unfold Pending.sized
  split <;> rfl

/-- The offers that follow the first have no say in the extras. -/
theorem Course.opened_after {arrival : Option Offer} {before after : Standing}
    {handed : Option (Aggregate × List Offer)} (course : Course arrival before after handed)
    (hbefore : Opened before.pending before.offers) : Opened after.pending after.offers := by
  cases course with
  | idle | dropped | mergedClosing | closed => exact fun _ hp => by cases hp
  | opened x m timer frame opens =>
      intro _ hp
      cases hp
      exact ⟨x, rfl, (extras_opening x timer frame).symm⟩
  -- The one course that keeps an aggregate pending: its first offer stays in front.
  | merged x p offers m verdict =>
      intro _ hp
      cases hp
      rcases hbefore p rfl with ⟨first, hfirst, hextras⟩
      refine ⟨first, ?_, hextras.trans (extras_extended p x.segment).symm⟩
      rw [List.head?_append, Option.mem_def.mp hfirst]
      rfl
  | closedOpening x p offers m aggregate timer frame apart opens new closing =>
      intro _ hp
      cases hp
      exact ⟨x, rfl, (extras_opening x timer frame).symm⟩

namespace Dossier

/-- What a trial hands out is sealed as its first offer asked, if what was pending has
    the extras of its first offer. -/
theorem sealedWith_endure (d : Dossier) (trial : Trial)
    (hopened : ∀ flow, Opened (d.world.engine.pending flow) (d.offers flow)) :
    ∀ c ∈ (d.endure trial).closures, c ∈ d.closures ∨
      ∃ x ∈ c.offers.head?, c.aggregate.SealedWith x.extras := by
  intro c hc
  rcases d.world.endure_sealedWith trial with ⟨events, hhistory, hsealed⟩
  have hmore : (d.world.endure trial).aggregates
      = d.world.aggregates ++ events.filterMap Event.aggregate? := by
    rw [World.aggregates, hhistory, List.filterMap_append]
    rfl
  simp only [endure, hmore, List.drop_left, List.mem_append, List.mem_map] at hc
  rcases hc with hold | ⟨⟨flow, a⟩, hnew, rfl⟩
  · exact Or.inl hold
  · rcases List.mem_filterMap.mp hnew with ⟨event, hevent, he⟩
    rcases hsealed event hevent (flow, a) he with ⟨p, hp, hwith⟩
    rcases hopened flow p hp with ⟨x, hx, hextras⟩
    refine Or.inr ⟨x, ?_, hextras ▸ hwith⟩
    -- An offer that arrives may be the last of them, but there is a first already.
    simp only [offersWithin]
    split
    · exact hx
    · rw [List.head?_append, Option.mem_def.mp hx]
      rfl

/-- In every run, an aggregate is sealed as its first offer asked. -/
theorem sealedWith_run (setup : Setup) (trials : List Trial)
    (hstores : (run setup trials).world.stores < 2 ^ 64) :
    ∀ c ∈ (run setup trials).closures, ∃ x ∈ c.offers.head?, c.aggregate.SealedWith x.extras := by
  -- By induction on the run. What is said of closures is not kept by itself: an aggregate that is
  -- closed is as its first offer asked because it was so while it was pending.
  suffices h : (∀ flow, Opened ((run setup trials).world.engine.pending flow)
      ((run setup trials).offers flow)) ∧
      ∀ c ∈ (run setup trials).closures, ∃ x ∈ c.offers.head?, c.aggregate.SealedWith x.extras
    from h.2
  refine run_induction_kept setup trials
    (fun d => (∀ flow, Opened (d.world.engine.pending flow) (d.offers flow)) ∧
      ∀ c ∈ d.closures, ∃ x ∈ c.offers.head?, c.aggregate.SealedWith x.extras)
    hstores ⟨fun _ _ hp => (by cases hp), fun _ hc => absurd hc List.not_mem_nil⟩ ?_
  intro d trial _ hkept hlt hd
  constructor
  · rcases endure_cases hkept hlt trial with hidles | ⟨flow, handed, hcalls⟩
    · exact hidles.all (fun _ => Opened) hd.1
    · exact hcalls.all (fun _ => Opened) hd.1 (hcalls.course.opened_after (hd.1 flow))
  · intro c hc
    rcases d.sealedWith_endure trial hd.1 c hc with hold | hnew
    · exact hd.2 c hold
    · exact hnew

end Dossier

end ReceiveOffload
