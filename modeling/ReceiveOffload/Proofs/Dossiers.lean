import ReceiveOffload.Proofs.Aggregates
import ReceiveOffload.Proofs.Courses
import ReceiveOffload.Proofs.Rosters

/-!
# Dossiers Under Trial

A roster has the segments of the aggregates that are pending. A dossier has more:
under which policies they were offered, and an entry for every aggregate that was
handed out. What is promised of an aggregate depends on the calls that made it,
and with that the calls are known.

It is kept from outside as well. Which offers a pending aggregate is made of is
told as in a roster. An aggregate that is handed out says how many segments it
has, and from that it can be told whether the offer that arrived is one of them.
Nothing is left out, since there is an entry for every aggregate of the history.

A trial calls on one flow at most, and for that flow it takes one of the courses.
This is the one step lemma that everything about limits, headers and metadata
comes from.

## Main definitions

* `Trial.offer?`: What a trial offers to a flow.
* `Closure`: An aggregate that was handed out, and what it was made of.
* `Dossier`: A world, the offers of the pending aggregates, and the closures.
* `Dossier.run`: What a list of trials comes to.
* `Dossier.Calls`: A trial takes a course on one flow.

## Theorems

* `Dossier.endure_cases`: A trial takes a course on one flow or changes nothing.
* `Dossier.run_induction`: What every trial of a run keeps holds after it.
* `Dossier.accounts_run`: There is an entry for every aggregate, and it is right.
-/

namespace ReceiveOffload

/-- What a trial offers to a flow. -/
def Trial.offer? (flow : UInt64) : Trial → Option Offer
  | .step (.offer flow' frame policy extras) =>
    if flow' = flow then frame.segment?.map fun segment => ⟨segment, policy, extras⟩ else none
  | _ => none

theorem Trial.offer?_of_segment? (flow : UInt64) (frame : Frame) (policy : Policy)
    (extras : Extras) (segment : Segment) (hsegment : frame.segment? = some segment) :
    (Trial.step (.offer flow frame policy extras)).offer? flow
      = some ⟨segment, policy, extras⟩ := by
  simp only [offer?, hsegment, if_true, Option.map_some]

/-- What is offered came with a frame that was taken up. -/
theorem Trial.exists_of_offer? (flow : UInt64) (trial : Trial) (x : Offer)
    (h : trial.offer? flow = some x) : ∃ frame, frame.segment? = some x.segment ∧
      trial = .step (.offer flow frame x.policy x.extras) := by
  rcases trial with step | outages | timers
  · cases step with
    | offer flow' frame policy extras =>
        rw [offer?] at h
        split at h
        case isTrue hflow =>
          rcases Option.map_eq_some_iff.mp h with ⟨segment, hsegment, rfl⟩
          exact ⟨frame, hsegment, by rw [hflow]⟩
        case isFalse => cases h
    | flush | advance | deliver | refuse => cases h
  · cases h
  · cases h

/-- The offer is one of those that the trials make to the flow. -/
def Offered (trials : List Trial) (flow : UInt64) (x : Offer) : Prop :=
  ∃ trial ∈ trials, trial.offer? flow = some x

/-- An offer has the segment that arrives. -/
theorem Trial.map_offer? (flow : UInt64) (trial : Trial) :
    (trial.offer? flow).map Offer.segment = trial.arrival? flow := by
  rcases trial with step | outages | timers
  · cases step with
    | offer flow' frame policy extras =>
        simp only [offer?, arrival?]
        split
        · rw [Option.map_map]
          exact Option.map_id'
        · rfl
    | flush | advance | deliver | refuse => rfl
  · rfl
  · rfl

theorem offersAfter_map (before after : Option Pending) (arrival : Option Offer)
    (offers : List Offer) :
    (offersAfter before after arrival offers).map Offer.segment
      = membersAfter before after (arrival.map Offer.segment) (offers.map Offer.segment) := by
  rcases after with _ | p
  · rfl
  rcases arrival with _ | x
  · rfl
  simp only [offersAfter, membersAfter, Option.map_some]
  split
  · rw [List.map_append, List.map_singleton]
  · rfl

/-- An aggregate that was handed out by a call on a flow. -/
structure Closure where
  flow : UInt64
  aggregate : Aggregate
  /-- What the aggregate was made of, oldest first. -/
  offers : List Offer
  /-- What the aggregate is made of that the call left pending. -/
  next : List Offer
  /-- The metadata that the call left. -/
  metadata : Metadata

/-- A world, what each pending aggregate is made of, oldest first, and the
    aggregates that were handed out. -/
structure Dossier where
  world : World
  offers : UInt64 → List Offer := fun _ => []
  closures : List Closure := []

namespace Dossier

/-- The segments without what they were offered under. -/
def roster (d : Dossier) : Roster :=
  ⟨d.world, fun flow => (d.offers flow).map Offer.segment⟩

/-- The metadata of the world. -/
def metadata (d : Dossier) : Metadata :=
  d.world.engine.services.metadata

/-- How a flow stands. -/
def standing (d : Dossier) (flow : UInt64) : Standing :=
  ⟨d.world.engine.pending flow, d.offers flow, d.metadata⟩

/-- What a trial comes to. -/
def endure (d : Dossier) (trial : Trial) : Dossier :=
  let world := d.world.endure trial
  let offers flow := offersAfter (d.world.engine.pending flow) (world.engine.pending flow)
    (trial.offer? flow) (d.offers flow)
  let handed := world.aggregates.drop d.world.aggregates.length
  {
    world
    offers
    closures := d.closures ++ handed.map fun (flow, aggregate) => {
      flow
      aggregate
      offers := offersWithin aggregate (trial.offer? flow) (d.offers flow)
      next := offers flow
      metadata := world.engine.services.metadata
    }
  }

/-- What a list of trials comes to. -/
def run (setup : Setup) (trials : List Trial) : Dossier :=
  trials.foldl endure { world := .start setup }

/-- A dossier is a roster with more written down. -/
theorem roster_endure (d : Dossier) (trial : Trial) :
    (d.endure trial).roster = d.roster.endure trial := by
  simp only [roster, endure, Roster.endure, Roster.mk.injEq, true_and]
  funext flow
  rw [offersAfter_map, trial.map_offer?]

/-- What every trial of a run keeps holds after it, if it holds at the start. -/
theorem run_induction (setup : Setup) (trials : List Trial) (P : Dossier → Prop)
    (hstart : P { world := .start setup })
    (hendure : ∀ d, ∀ trial ∈ trials, P d → P (d.endure trial)) : P (run setup trials) := by
  suffices h : ∀ left, left ⊆ trials → ∀ d, P d → P (left.foldl endure d) from
    h trials (List.Subset.refl trials) _ hstart
  intro left
  induction left with
  | nil => exact fun _ _ hd => hd
  | cons trial left ih =>
      intro hsub d hd
      exact ih (fun t ht => hsub (List.mem_cons_of_mem trial ht)) (d.endure trial)
        (hendure d trial (hsub List.mem_cons_self) hd)

/-- Without the policies and the entries, a run is a run of the roster. -/
theorem roster_run (setup : Setup) (trials : List Trial) :
    (run setup trials).roster = .run setup trials := by
  suffices h : ∀ d : Dossier, (trials.foldl endure d).roster
      = trials.foldl Roster.endure d.roster from h _
  induction trials with
  | nil => exact fun _ => rfl
  | cons trial trials ih =>
      intro d
      rw [List.foldl_cons, List.foldl_cons, ih, roster_endure]

theorem kept_run (setup : Setup) (trials : List Trial)
    (hstores : (run setup trials).world.stores < 2 ^ 64) : (run setup trials).roster.Kept := by
  rw [roster_run]
  exact Roster.kept_run setup trials (roster_run setup trials ▸ hstores)

/-- The entry for an aggregate that a call on a flow handed out, after the call. -/
def entry (d : Dossier) (flow : UInt64) (handed : Aggregate × List Offer) : Closure where
  flow
  aggregate := handed.1
  offers := handed.2
  next := d.offers flow
  metadata := d.metadata

/-- A trial takes a course on one flow. -/
structure Calls (d : Dossier) (trial : Trial) (flow : UInt64)
    (handed : Option (Aggregate × List Offer)) : Prop where
  course : Course (trial.offer? flow) (d.standing flow) ((d.endure trial).standing flow) handed
  /-- The other flows have nothing to do with it. -/
  others : ∀ g, g ≠ flow → (d.endure trial).world.engine.pending g = d.world.engine.pending g ∧
    (d.endure trial).offers g = d.offers g ∧ trial.offer? g = none
  closures : (d.endure trial).closures
    = d.closures ++ handed.toList.map ((d.endure trial).entry flow)

/-- A trial changes nothing that is told here. -/
structure Idles (d : Dossier) (trial : Trial) : Prop where
  standing : ∀ g, (d.endure trial).standing g = d.standing g
  closures : (d.endure trial).closures = d.closures
  offer? : ∀ g, trial.offer? g = none

variable {d : Dossier}

/-- What a flow has standing is held in storage. -/
theorem standing_held (kept : d.roster.Kept) (flow : UInt64) : (d.standing flow).Held := by
  have hheld := kept.held flow
  rw [Standing.Held, standing]
  rcases hp : d.world.engine.pending flow with _ | p
  all_goals rw [show d.roster.world.engine.pending flow = _ from hp] at hheld
  · exact List.map_eq_nil_iff.mp hheld
  · rcases hheld with ⟨first, rest, stored, hmembers, _, m⟩
    exact ⟨first, rest, stored, hmembers, m⟩

/-- What was left alone is made of what it was made of. -/
theorem offersAfter_self (kept : d.roster.Kept) (g : UInt64) :
    offersAfter (d.world.engine.pending g) (d.world.engine.pending g) none (d.offers g)
      = d.offers g := by
  have hheld := kept.held g
  rcases hp : d.world.engine.pending g with _ | p
  · rw [show d.roster.world.engine.pending g = none from hp] at hheld
    exact (List.map_eq_nil_iff.mp hheld).symm
  · rfl

/-- A trial that leaves the flows and the metadata alone and hands nothing out. -/
theorem idles_of_unchanged (kept : d.roster.Kept) (trial : Trial) (engine : Engine)
    (events : List Event) (hworld : d.world.endure trial = d.world.next engine events)
    (hpending : ∀ g, engine.pending g = d.world.engine.pending g)
    (hmetadata : engine.services.metadata = d.metadata)
    (hhanded : events.filterMap Event.aggregate? = []) (hoffer : ∀ g, trial.offer? g = none) :
    d.Idles trial := by
  constructor
  case standing =>
    intro g
    have hsame : (d.world.next engine events).engine.pending g = d.world.engine.pending g :=
      hpending g
    simp only [Dossier.standing, endure, hworld, hsame, hoffer g, offersAfter_self kept g,
      Standing.mk.injEq, true_and]
    exact hmetadata
  case closures =>
    simp only [endure, hworld, World.aggregates_next, hhanded, List.append_nil,
      List.drop_length, List.map_nil]
  case offer? => exact hoffer

/-- A trial that takes a course on a flow and leaves the others alone. -/
theorem calls_of_course (kept : d.roster.Kept) (trial : Trial) (flow : UInt64) (after : Standing)
    (handed : Option (Aggregate × List Offer))
    (course : Course (trial.offer? flow) (d.standing flow) after handed) (engine : Engine)
    (events : List Event) (hworld : d.world.endure trial = d.world.next engine events)
    (hpending : engine.pending flow = after.pending)
    (hmetadata : engine.services.metadata = after.metadata)
    (hothers : ∀ g, g ≠ flow →
      engine.pending g = d.world.engine.pending g ∧ trial.offer? g = none)
    (hhanded : events.filterMap Event.aggregate?
      = (handed.map fun entry => (flow, entry.1)).toList) : d.Calls trial flow handed := by
  have hoffers : (d.endure trial).offers flow = after.offers := by
    rw [← course.offers_eq, ← hpending]
    simp only [endure, hworld]
    rfl
  have hstanding : (d.endure trial).standing flow = after := by
    rw [Dossier.standing, hoffers]
    simp only [metadata, endure, hworld]
    show (⟨engine.pending flow, after.offers, engine.services.metadata⟩ : Standing) = after
    rw [hpending, hmetadata]
  constructor
  case course => exact hstanding ▸ course
  case others =>
    intro g hg
    rcases hothers g hg with ⟨hsame, hoffer⟩
    have hpend : (d.world.next engine events).engine.pending g = d.world.engine.pending g := hsame
    simp only [endure, hworld, hpend, hoffer, offersAfter_self kept g, and_self]
  -- What was handed out is what the world has in addition to before.
  case closures =>
    have hlist : (d.endure trial).closures = d.closures
        ++ (handed.map fun entry => (flow, entry.1)).toList.map fun entry => {
          flow := entry.1
          aggregate := entry.2
          offers := offersWithin entry.2 (trial.offer? entry.1) (d.offers entry.1)
          next := (d.endure trial).offers entry.1
          metadata := (d.endure trial).metadata } := by
      simp only [endure, hworld, World.aggregates_next, hhanded, List.drop_left, metadata]
    rw [hlist]
    rcases handed with _ | handed
    · rfl
    · have hwithin := (course.handed_eq handed rfl).1
      simp only [Option.map_some, Option.toList_some, List.map_singleton, entry]
      rw [← hwithin]
      rfl

/-- Offering a segment that is taken up takes a course on its flow. -/
theorem calls_offer (kept : d.roster.Kept) (hstores : d.world.stores < 2 ^ 64) (flow : UInt64)
    (frame : Frame) (policy : Policy) (extras : Extras) (segment : Segment)
    (hsegment : frame.segment? = some segment) :
    ∃ handed, d.Calls (.step (.offer flow frame policy extras)) flow handed ∧
      (d.world.engine.offer flow frame policy extras).1.aggregate = handed.map Prod.fst := by
  have hheld := kept.held flow
  have hgenuine := ((Segment.ofFrame_eq_ok_iff frame segment).mp
    ((frame.segment?_eq_some_iff segment).mp hsegment).2).2
  have hoffer := Trial.offer?_of_segment? flow frame policy extras segment hsegment
  -- The course of the turn is that of the services, for a flow that is idle and for one that is
  -- not.
  have hruns : (d.world.engine.turn flow segment policy extras).Runs
      (some ⟨segment, policy, extras⟩) (d.standing flow) := by
    rw [standing]
    unfold Engine.turn
    rcases hpending : d.world.engine.pending flow with _ | p
    all_goals rw [show d.roster.world.engine.pending flow = _ from hpending] at hheld
    · rw [List.map_eq_nil_iff.mp (show (d.offers flow).map Offer.segment = [] from hheld)]
      exact Services.onIdle_course _ flow ⟨segment, policy, extras⟩
    · exact Services.onPending_course _ flow p ⟨segment, policy, extras⟩ (kept.fresh hstores)
        hheld hgenuine
  rcases hruns with ⟨after, handed, course, hflow, hmetadata, haggregate⟩
  rcases d.world.engine.offer_accepted flow frame policy extras segment hsegment with
    ⟨houtput, hflows, hservices⟩
  refine ⟨handed, calls_of_course kept _ flow after handed (hoffer.symm ▸ course)
    (d.world.engine.offer flow frame policy extras).2
    [.offered flow frame (d.world.engine.offer flow frame policy extras).1] rfl ?_ ?_ ?_ ?_,
    houtput ▸ haggregate⟩
  · rw [hflows, if_pos rfl, hflow]
  · rw [hservices, hmetadata]
  · intro g hg
    exact ⟨(hflows g).trans (if_neg hg), if_neg (fun hsame => hg hsame.symm)⟩
  · simp only [houtput, List.filterMap_cons, List.filterMap_nil, Event.aggregate?, haggregate]
    rcases handed with _ | handed <;> rfl

/-- Closing what is pending on a flow, with no segment that arrives, takes a course
    on it. -/
theorem calls_close (kept : d.roster.Kept) (trial : Trial) (flow : UInt64) (p : Pending)
    (engine : Engine) (events : List Event) (closed : Option Aggregate × Services)
    (hworld : d.world.endure trial = d.world.next engine events)
    (hp : d.world.engine.pending flow = some p)
    (hpending : ∀ g, engine.pending g = if g = flow then none else d.world.engine.pending g)
    (hclosed : ∃ s : Services, closed = s.closeAggregate p ∧
      s.frames = d.world.engine.services.frames ∧ s.metadata = d.metadata)
    (hafter : engine.services.metadata = closed.2.metadata)
    (hhanded : events.filterMap Event.aggregate? = (closed.1.map fun a => (flow, a)).toList)
    (hoffer : ∀ g, trial.offer? g = none) : ∃ handed, d.Calls trial flow handed := by
  have hheld := kept.held flow
  rw [show d.roster.world.engine.pending flow = _ from hp] at hheld
  rcases hclosed with ⟨s, rfl, hframes, hmetadata⟩
  rcases s.closeAggregate_course p (hheld.of_frames_eq hframes) with ⟨hclosing, hcounted⟩
  have hcourse : Course (trial.offer? flow) (d.standing flow) ⟨none, [], p.writeCount d.metadata⟩
      ((s.closeAggregate p).1.map fun a => (a, d.offers flow)) := by
    rw [standing, hp, hoffer flow]
    exact .closed none p (d.offers flow) d.metadata _ (fun _ h => by cases h) hclosing
  refine ⟨_, calls_of_course kept trial flow _ _ hcourse engine events hworld
    ((hpending flow).trans (if_pos rfl)) ?_ ?_ ?_⟩
  · rw [hafter, hcounted, hmetadata]
  · exact fun g hg => ⟨(hpending g).trans (if_neg hg), hoffer g⟩
  · rw [hhanded, Option.map_map]
    rfl

/-- A frame that is refused changes nothing that is told here. -/
theorem idles_refused (kept : d.roster.Kept) (flow : UInt64) (frame : Frame) (policy : Policy)
    (extras : Extras) (hsegment : frame.segment? = none) :
    d.Idles (.step (.offer flow frame policy extras)) := by
  rcases d.world.engine.offer_refused flow frame policy extras hsegment with ⟨houtput, hleft⟩
  refine idles_of_unchanged kept _ (d.world.engine.offer flow frame policy extras).2
    [.offered flow frame (d.world.engine.offer flow frame policy extras).1] rfl ?_ ?_ ?_ ?_
  · rcases hleft with heq | ⟨cause, heq⟩ <;>
      · rw [heq]
        exact fun _ => rfl
  · rcases hleft with heq | ⟨cause, heq⟩ <;>
      · rw [heq]
        rfl
  · rw [houtput]
    rfl
  · intro g
    simp only [Trial.offer?, hsegment, Option.map_none, ite_self]

/-- A flush closes what is pending, or nothing is. -/
theorem flush_cases (kept : d.roster.Kept) (flow : UInt64) :
    d.Idles (.step (.flush flow)) ∨ ∃ handed, d.Calls (.step (.flush flow)) flow handed := by
  rcases d.world.engine.flush_cases flow with ⟨_, houtput, hpending, hservices⟩ |
    ⟨p, hp, houtput, hpending, hservices⟩
  · refine Or.inl (idles_of_unchanged kept _ (d.world.engine.flush flow).2
      [.flushed flow (d.world.engine.flush flow).1] rfl hpending ?_ ?_ (fun _ => rfl))
    · rw [hservices]
      rfl
    · rw [houtput]
      rfl
  · refine Or.inr (calls_close kept _ flow p (d.world.engine.flush flow).2
      [.flushed flow (d.world.engine.flush flow).1] (d.world.engine.flushed flow p) rfl hp hpending
      ⟨_, rfl, ?_, ?_⟩ (congrArg Services.metadata hservices) ?_ (fun _ => rfl))
    -- Whether the request is counted makes no difference.
    · split <;> rfl
    · split <;> rfl
    · rw [houtput]
      rcases hclosed : (d.world.engine.flushed flow p).1 with _ | aggregate <;> rfl

/-- A delivery closes what its timer is for, or changes nothing. -/
theorem deliver_cases (kept : d.roster.Kept) (index : Nat) :
    d.Idles (.step (.deliver index)) ∨
      ∃ flow handed, d.Calls (.step (.deliver index)) flow handed := by
  rcases hexpiry : d.world.expiries[index]? with _ | expiry
  · -- Nothing was handed out under this number.
    have hworld : d.world.endure (.step (.deliver index)) = d.world := by
      simp only [World.endure, World.step, hexpiry]
    refine Or.inl ⟨fun g => ?_, ?_, fun _ => rfl⟩
    · simp only [standing, endure, metadata, hworld]
      rw [show (Trial.step (.deliver index)).offer? g = none from rfl, offersAfter_self kept g]
    · simp only [endure, hworld, List.drop_length, List.map_nil, List.append_nil]
  have hworld : d.world.endure (.step (.deliver index))
      = d.world.next (d.world.engine.expire expiry).2
        [.delivered expiry (d.world.engine.timeOut expiry).1] := by
    simp only [World.endure, World.step, hexpiry]
  rcases d.world.engine.expire_eq expiry with ⟨hflows, _, _⟩
  have hnoted : (d.world.engine.expire expiry).2.services.metadata
      = (d.world.engine.timeOut expiry).2.services.metadata := by
    rcases d.world.engine.expire_noted expiry with hsame | ⟨length, hnoted⟩
    · rw [hsame]
    · rw [hnoted]
      rfl
  by_cases htimely : ∃ p, d.world.engine.pending expiry.flow = some p ∧ p.timer = expiry.handle
  · rcases htimely with ⟨p, hp, htimer⟩
    rcases d.world.engine.timeOut_timely expiry p hp htimer with ⟨haggregate, hpending, hservices⟩
    refine Or.inr ⟨expiry.flow, calls_close kept _ expiry.flow p _ _
      (d.world.engine.timedOut expiry p) hworld hp (fun g => (hflows g).trans (hpending g))
      ⟨_, rfl, rfl, rfl⟩ (hnoted.trans (by rw [hservices]; rfl)) ?_ (fun _ => rfl)⟩
    rw [haggregate]
    rcases hclosed : (d.world.engine.timedOut expiry p).1 with _ | aggregate <;> rfl
  · have hlate : ∀ p, d.world.engine.pending expiry.flow = some p → p.timer ≠ expiry.handle :=
      fun p hp htimer => htimely ⟨p, hp, htimer⟩
    rcases d.world.engine.timeOut_late expiry hlate with ⟨hnone, hpending, hservices⟩
    refine Or.inl (idles_of_unchanged kept _ _ _ hworld (fun g => (hflows g).trans (hpending g))
      (hnoted.trans (by rw [hservices]; rfl)) ?_ (fun _ => rfl))
    rw [hnone]
    rfl

/-- A trial takes a course on one flow or changes nothing that is told here. -/
theorem endure_cases (kept : d.roster.Kept) (hstores : d.world.stores < 2 ^ 64) (trial : Trial) :
    d.Idles trial ∨ ∃ flow handed, d.Calls trial flow handed := by
  rcases trial with step | outages | timers
  · cases step with
    | offer flow frame policy extras =>
        rcases hsegment : frame.segment? with _ | segment
        · exact Or.inl (idles_refused kept flow frame policy extras hsegment)
        · rcases calls_offer kept hstores flow frame policy extras segment hsegment with
            ⟨handed, hcalls, _⟩
          exact Or.inr ⟨flow, handed, hcalls⟩
    | flush flow =>
        rcases flush_cases kept flow with hidles | hcalls
        · exact Or.inl hidles
        · exact Or.inr ⟨flow, hcalls⟩
    | advance elapsed =>
        exact Or.inl (idles_of_unchanged kept _ _ _ rfl (fun _ => rfl) rfl rfl (fun _ => rfl))
    | deliver index => exact deliver_cases kept index
    | refuse store extend =>
        exact Or.inl (idles_of_unchanged kept _ _ _ rfl (fun _ => rfl) rfl rfl (fun _ => rfl))
  · exact Or.inl (idles_of_unchanged kept _ _ _ rfl (fun _ => rfl) rfl rfl (fun _ => rfl))
  · exact Or.inl (idles_of_unchanged kept _ _ _ rfl (fun _ => rfl) rfl rfl (fun _ => rfl))

/-- What every trial of a run keeps holds after it, given that the roster is right
    all along. -/
theorem run_induction_kept (setup : Setup) (trials : List Trial) (P : Dossier → Prop)
    (hstores : (run setup trials).world.stores < 2 ^ 64) (hstart : P { world := .start setup })
    (hendure : ∀ d, ∀ trial ∈ trials, d.roster.Kept → d.world.stores < 2 ^ 64 → P d →
      P (d.endure trial)) : P (run setup trials) := by
  have hboth := run_induction setup trials
    (fun d => d.world.stores < 2 ^ 64 → d.roster.Kept ∧ P d)
    (fun _ => ⟨Roster.kept_start setup, hstart⟩) ?_
  · exact (hboth hstores).2
  · intro d trial htrial hd hlt
    -- Stores are never taken back, so there were identifiers left before.
    have hbefore := Nat.lt_of_le_of_lt (d.world.stores_le_endure trial) hlt
    rcases hd hbefore with ⟨hkept, hP⟩
    refine ⟨?_, hendure d trial htrial hkept hbefore hP⟩
    rw [roster_endure]
    exact hkept.endure hbefore trial

/-- A segment that is offered has the headers that its frame says. -/
theorem genuine_of_offer? (trial : Trial) (flow : UInt64) (x : Offer)
    (hoffer : trial.offer? flow = some x) : x.segment.Genuine := by
  rcases trial.exists_of_offer? flow x hoffer with ⟨frame, hsegment, _⟩
  exact ((Segment.ofFrame_eq_ok_iff frame x.segment).mp
    ((frame.segment?_eq_some_iff x.segment).mp hsegment).2).2

/-- What holds of every flow and of what it is made of holds after a trial that
    changes nothing. -/
theorem Idles.all {trial : Trial} (idles : d.Idles trial)
    (P : UInt64 → Option Pending → List Offer → Prop)
    (hd : ∀ g, P g (d.world.engine.pending g) (d.offers g)) :
    ∀ g, P g ((d.endure trial).world.engine.pending g) ((d.endure trial).offers g) := by
  intro g
  have hsame := idles.standing g
  simp only [Dossier.standing, Standing.mk.injEq] at hsame
  rw [hsame.1, hsame.2.1]
  exact hd g

/-- So it does after a call that keeps it of its own flow. -/
theorem Calls.all {trial : Trial} {flow : UInt64} {handed : Option (Aggregate × List Offer)}
    (calls : d.Calls trial flow handed) (P : UInt64 → Option Pending → List Offer → Prop)
    (hd : ∀ g, P g (d.world.engine.pending g) (d.offers g))
    (hflow : P flow ((d.endure trial).world.engine.pending flow) ((d.endure trial).offers flow)) :
    ∀ g, P g ((d.endure trial).world.engine.pending g) ((d.endure trial).offers g) := by
  intro g
  by_cases hg : g = flow
  · exact hg ▸ hflow
  · rcases calls.others g hg with ⟨hpending, hoffers, _⟩
    rw [hpending, hoffers]
    exact hd g

/-- What every course of a run keeps, of a flow and of what is handed out, holds
    after it. -/
theorem run_courses (setup : Setup) (trials : List Trial)
    (P : UInt64 → Option Pending → List Offer → Prop)
    (Q : UInt64 → Aggregate → List Offer → Prop)
    (hstores : (run setup trials).world.stores < 2 ^ 64) (hstart : ∀ flow, P flow none [])
    (hcourse : ∀ flow arrival before after handed,
      (∀ x ∈ arrival, x.segment.Genuine ∧ Offered trials flow x) →
      before.Held → P flow before.pending before.offers → Course arrival before after handed →
      P flow after.pending after.offers ∧ ∀ e ∈ handed, Q flow e.1 e.2) :
    (∀ flow, P flow ((run setup trials).world.engine.pending flow)
      ((run setup trials).offers flow)) ∧
    ∀ c ∈ (run setup trials).closures, Q c.flow c.aggregate c.offers := by
  refine run_induction_kept setup trials
    (fun d => (∀ flow, P flow (d.world.engine.pending flow) (d.offers flow)) ∧
      ∀ c ∈ d.closures, Q c.flow c.aggregate c.offers)
    hstores ⟨hstart, fun _ hc => absurd hc List.not_mem_nil⟩ ?_
  intro d trial htrial hkept hlt hd
  -- By induction on the run. What does not call the engine keeps everything; what does is one
  -- course of one flow.
  rcases endure_cases hkept hlt trial with hidles | ⟨flow, handed, hcalls⟩
  · rw [hidles.closures]
    exact ⟨hidles.all P hd.1, hd.2⟩
  · have hstep := hcourse flow _ _ _ handed
      (fun x hx => ⟨genuine_of_offer? trial flow x hx, trial, htrial, hx⟩)
      (standing_held hkept flow) (hd.1 flow) hcalls.course
    refine ⟨hcalls.all P hd.1 hstep.1, fun c hc => ?_⟩
    rw [hcalls.closures, List.mem_append] at hc
    rcases hc with hold | hnew
    · exact hd.2 c hold
    · rcases List.mem_map.mp hnew with ⟨e, he, rfl⟩
      exact hstep.2 e (Option.mem_toList.mp he)

/-- Every aggregate that was handed out was made of the offers of its entry, and
    these were made to its flow. -/
theorem closures_run (setup : Setup) (trials : List Trial)
    (hstores : (run setup trials).world.stores < 2 ^ 64) :
    (∀ flow, ∀ x ∈ (run setup trials).offers flow, Offered trials flow x) ∧
    ∀ c ∈ (run setup trials).closures, Closing c.aggregate (c.offers.map Offer.segment) ∧
      ∀ x ∈ c.offers, Offered trials c.flow x := by
  refine run_courses setup trials
    (fun flow _ offers => ∀ x ∈ offers, Offered trials flow x)
    (fun flow a offers => Closing a (offers.map Offer.segment) ∧
      ∀ x ∈ offers, Offered trials flow x)
    hstores (fun _ _ hx => absurd hx List.not_mem_nil) ?_
  intro flow arrival before after handed harrival _ hbefore course
  -- Whatever an aggregate is made of has arrived now or was there before.
  have hall : ∀ offers : List Offer, offers ⊆ before.offers ++ arrival.toList →
      ∀ x ∈ offers, Offered trials flow x := by
    intro offers hsub x hx
    rcases List.mem_append.mp (hsub hx) with hold | hnew
    · exact hbefore x hold
    · exact (harrival x (Option.mem_toList.mp hnew)).2
  exact ⟨hall _ course.offers_subset, fun e he =>
    ⟨(course.handed_eq e he).2, hall _ (course.handed_subset e he)⟩⟩

/-- There is an entry for every aggregate of the history, in order. -/
theorem aggregates_run (setup : Setup) (trials : List Trial) :
    (run setup trials).closures.map (fun c => (c.flow, c.aggregate))
      = (run setup trials).world.aggregates := by
  refine run_induction setup trials
    (fun d => d.closures.map (fun c => (c.flow, c.aggregate)) = d.world.aggregates) rfl ?_
  intro d trial _ hd
  have hprefix : ∃ more, (d.world.endure trial).aggregates = d.world.aggregates ++ more := by
    rcases d.world.endure_eq_next trial with hsame | ⟨engine, events, hnext⟩
    · exact ⟨[], by rw [hsame, List.append_nil]⟩
    · exact ⟨_, by rw [hnext, World.aggregates_next]⟩
  rcases hprefix with ⟨more, hmore⟩
  simp only [endure, hmore, List.drop_left, List.map_append, List.map_map, hd]
  rw [show ((fun c : Closure => (c.flow, c.aggregate)) ∘ _) = id from rfl, List.map_id]

/-- The account is complete and right. -/
structure Accounts (d : Dossier) : Prop where
  /-- There is an entry for every aggregate. -/
  listed : d.closures.map (fun c => (c.flow, c.aggregate)) = d.world.aggregates
  made : ∀ c ∈ d.closures, Closing c.aggregate (c.offers.map Offer.segment)
  held : ∀ flow, d.world.engine.services.Holds (d.world.engine.pending flow)
    ((d.offers flow).map Offer.segment)

theorem accounts_run (setup : Setup) (trials : List Trial)
    (hstores : (run setup trials).world.stores < 2 ^ 64) : (run setup trials).Accounts :=
  ⟨aggregates_run setup trials, fun c hc => ((closures_run setup trials hstores).2 c hc).1,
    (kept_run setup trials hstores).held⟩

end Dossier

end ReceiveOffload
