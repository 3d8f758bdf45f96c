import ReceiveOffload.Proofs.Dossiers
import ReceiveOffload.Proofs.Measures
import ReceiveOffload.Proofs.Summary

/-!
# Limits

A policy sets two limits, on the octets of an aggregate and on its segments, and
each call comes with a policy of its own. So a limit is a promise of one call: an
aggregate that a call leaves pending is below both of its limits, and one that it
hands out is within them. What is pending was left by the call that put the last
segment in, and it is that call's limits that it is below.

Below means that there is room for one more octet and one more segment. That is
what an aggregate is opened under, and an appended segment that uses up the last
room closes it in the same call.

Which segments are appended is decided by the octets alone once a segment
continues the aggregate. Whether they fit is looked at before anything is
stored, and the one limit that is never reached by a segment too many is the one
on segments, since the aggregate was below it.

## Main definitions

* `Pending.Below`: An aggregate has room left under a policy.
* `Aggregate.Within`: An aggregate is within the limits of the calls that made it.
* `Dossier.Joins`: A trial puts an offer into the pending aggregate of a flow.
* `Services.Permits`: Storage is not going to refuse.
* `Dossier.Limited`, `Dossier.Exact`: The limits are kept, and reached exactly.

## Theorems

* `Course.limited`: A call keeps the limits.
* `Dossier.joins_iff`: Which segments are appended and which of them close the
  aggregate.
* `limits_exact`: In every run.
-/

namespace ReceiveOffload

/-- The aggregate has room for one more octet and one more segment. -/
structure Pending.Below (p : Pending) (policy : Policy) : Prop where
  length : p.length.toNat < policy.sizeLimit
  segments : p.segments < policy.segmentLimit

/-- The aggregate is no larger than the last of the calls allowed that made it,
    and one of them allowed so many segments. -/
structure Aggregate.Within (aggregate : Aggregate) (offers : List Offer) : Prop where
  length : ∃ x, offers.getLast? = some x ∧ aggregate.length ≤ x.policy.sizeLimit
  segments : ∃ x ∈ offers, aggregate.segments ≤ x.policy.segmentLimit

/-- A verdict leaves the aggregate open if there is room left in it. -/
theorem Pending.verdict_eq_merge_iff (p : Pending) (segment : Segment) (policy : Policy) :
    p.verdict segment policy = .merge ↔
      (p.verdict segment policy = .merge ∨ p.verdict segment policy = .mergeThenClose) ∧
        p.closedBy segment.headers (p.sizeWith segment) policy = false := by
  unfold verdict
  by_cases hclosed : p.closedBy segment.headers (p.sizeWith segment) policy = true <;>
    simp only [hclosed, if_true, Bool.false_eq_true, if_false] <;> split_ifs <;> simp

/-- What a segment adds to an aggregate is its payload. -/
theorem Pending.sizeWith_eq (p : Pending) (segment : Segment) (genuine : segment.Genuine)
    (hmergeable : segment.headers.mergeable = true) :
    p.sizeWith segment = p.length.toNat + segment.payload.length := by
  have hfits := genuine.reads.fits
  have hinside := genuine.reads.inside
  rw [genuine.payload_eq ((Headers.mergeable_iff _).mp hmergeable).2.2.2, List.length_drop]
  simp only [sizeWith, Frame.length]
  omega

namespace Course

variable {arrival : Option Offer} {before after : Standing}
  {handed : Option (Aggregate × List Offer)}

/-- What is pending was left below the limits of the call that put the last
    segment in. -/
def Bounded (pending : Option Pending) (offers : List Offer) : Prop :=
  ∀ p, pending = some p → ∃ x, offers.getLast? = some x ∧ p.Below x.policy

/-- An aggregate that is closed as it is was below the limits already. -/
theorem within_of_closing {p : Pending} {offers : List Offer} {m : Metadata}
    (held : Standing.Held ⟨some p, offers, m⟩) (bounded : Bounded (some p) offers)
    (aggregate : Aggregate) (closing : Closing aggregate (offers.map Offer.segment)) :
    aggregate.Within offers := by
  rcases held with ⟨first, rest, stored, hmembers, merged⟩
  rcases bounded p rfl with ⟨x, hlast, below⟩
  have hsegments := closing.segments_eq
  have hmembers : offers.map Offer.segment = first :: rest := hmembers
  rw [hmembers] at closing hsegments
  constructor
  case length =>
    refine ⟨x, hlast, Nat.le_of_lt ?_⟩
    rw [closing.length_eq, ← merged.summarizes.length]
    exact below.length
  case segments =>
    refine ⟨x, List.mem_of_getLast? hlast, Nat.le_of_lt ?_⟩
    rw [hsegments, ← merged.summarizes.segments]
    exact below.segments

/-- An aggregate that a segment is appended to has room for it. -/
theorem within_of_appends {p : Pending} {offers : List Offer} {m : Metadata} (x : Offer)
    (held : Standing.Held ⟨some p, offers, m⟩) (bounded : Bounded (some p) offers)
    (genuine : x.segment.Genuine)
    (appends : p.verdict x.segment x.policy = .merge
      ∨ p.verdict x.segment x.policy = .mergeThenClose)
    (aggregate : Aggregate)
    (closing : Closing aggregate ((offers ++ [x]).map Offer.segment)) :
    aggregate.Within (offers ++ [x]) := by
  rcases held with ⟨first, rest, stored, hmembers, merged⟩
  rcases bounded p rfl with ⟨y, hlast, below⟩
  rcases (p.appends_iff x.segment x.policy).mp appends with ⟨_, haccepts, hsize⟩
  have hmergeable := ((p.accepts_iff _).mp haccepts).2.2.2
  have hsegments := closing.segments_eq
  have hcount : (offers.map Offer.segment).length = p.segments :=
    (congrArg List.length hmembers).trans merged.summarizes.segments.symm
  have hmembers : (offers ++ [x]).map Offer.segment = first :: (rest ++ [x.segment]) := by
    rw [List.map_append, List.map_singleton, ← List.cons_append, ← hmembers]
    rfl
  rw [hmembers] at closing
  constructor
  case length =>
    refine ⟨x, List.getLast?_concat, ?_⟩
    rw [closing.length_eq, List.map_append, List.map_singleton, List.flatten_append,
      List.flatten_singleton, List.length_append, ← Nat.add_assoc, ← merged.summarizes.length,
      ← p.sizeWith_eq x.segment genuine hmergeable]
    exact hsize
  case segments =>
    -- The aggregate was below the limit of the call before, and has one more now.
    refine ⟨y, List.mem_append_left _ (List.mem_of_getLast? hlast), ?_⟩
    rw [hsegments, List.map_append, List.length_append, List.map_singleton,
      List.length_singleton, hcount]
    exact below.segments

/-- A segment that opens an aggregate leaves room in it. -/
theorem below_opening (x : Offer) (timer : TimerId) (frame : FrameId)
    (opens : x.segment.canOpen x.policy = true) : (x.opening timer frame).sized.Below x.policy := by
  simp only [Segment.canOpen, decide_eq_true_eq] at opens
  have hlimit := x.policy.sizeLimit_le
  rw [maxAggregateSize] at hlimit
  have hlength : (UInt32.ofNat x.segment.frame.length).toNat = x.segment.frame.length :=
    UInt32.toNat_ofNat_of_lt' (by simp only [UInt32.size]; omega)
  constructor
  case length =>
    rw [Pending.length_sized]
    exact hlength.symm ▸ opens.2.2.2
  case segments =>
    rw [Pending.segments_sized]
    exact opens.2.2.1

/-- A segment that is appended and does not close the aggregate leaves room in
    it. -/
theorem below_extended (p : Pending) (x : Offer)
    (verdict : p.verdict x.segment x.policy = .merge) :
    (p.extended x.segment).sized.Below x.policy := by
  rcases (p.verdict_eq_merge_iff x.segment x.policy).mp verdict with ⟨appends, hopen⟩
  rcases (p.appends_iff x.segment x.policy).mp appends with ⟨_, _, hsize⟩
  simp only [Pending.closedBy, decide_eq_false_iff_not, not_or, Nat.not_le] at hopen
  have hlimit := x.policy.sizeLimit_le
  rw [maxAggregateSize] at hlimit
  have hlength : (UInt32.ofNat (p.sizeWith x.segment)).toNat = p.sizeWith x.segment :=
    UInt32.toNat_ofNat_of_lt' (by simp only [UInt32.size]; omega)
  constructor
  case length =>
    rw [Pending.length_sized]
    exact hlength.symm ▸ Nat.lt_of_le_of_ne hsize hopen.2.1
  case segments =>
    rw [Pending.segments_sized]
    exact hopen.2.2

/-- A call leaves what is pending below its limits and hands out what is within
    them. -/
theorem limited (course : Course arrival before after handed) (held : before.Held)
    (genuine : ∀ x ∈ arrival, x.segment.Genuine) (bounded : Bounded before.pending before.offers) :
    Bounded after.pending after.offers ∧ ∀ e ∈ handed, e.1.Within e.2 := by
  have hnone : ∀ offers, Bounded none offers := fun _ _ hp => by cases hp
  have hsome : ∀ (p : Pending) (offers : List Offer) (x : Offer), p.Below x.policy →
      Bounded (some p) (offers ++ [x]) := by
    intro p offers x below q hq
    cases hq
    exact ⟨x, List.getLast?_concat, below⟩
  have hhanded : ∀ (aggregate : Option Aggregate) (offers : List Offer),
      (∀ a ∈ aggregate, a.Within offers) →
      ∀ e ∈ aggregate.map fun a => (a, offers), e.1.Within e.2 := by
    intro aggregate offers hwithin e he
    rcases Option.map_eq_some_iff.mp he with ⟨a, ha, rfl⟩
    exact hwithin a ha
  cases course with
  | idle | dropped => exact ⟨hnone _, fun _ he => by cases he⟩
  | opened x m timer frame opens =>
      exact ⟨hsome _ [] x (below_opening x timer frame opens), fun _ he => by cases he⟩
  | merged x p offers m verdict =>
      exact ⟨hsome _ offers x (below_extended p x verdict), fun _ he => by cases he⟩
  | mergedClosing x p offers m aggregate verdict closing =>
      exact ⟨hnone _, hhanded _ _ fun a ha => within_of_appends x held bounded (genuine x rfl)
        (Or.inr verdict) a (closing a ha)⟩
  | closed arrival p offers m aggregate apart closing =>
      exact ⟨hnone _, hhanded _ _ fun a ha => within_of_closing held bounded a (closing a ha)⟩
  | closedOpening x p offers m aggregate timer frame apart opens new closing =>
      exact ⟨hsome _ [] x (below_opening x timer frame opens),
        hhanded _ _ fun a ha => within_of_closing held bounded a (closing a ha)⟩

/-- What goes into the pending aggregate is what the verdict accepts, and it closes
    the aggregate if that is the verdict, unless storage refuses something. -/
theorem joins_iff {x : Offer} {p : Pending} {offers : List Offer} {m : Metadata}
    (course : Course (some x) ⟨some p, offers, m⟩ after handed) (hne : offers ≠ [])
    (hopen : p.verdict x.segment x.policy = .merge → after.pending.isSome = true)
    (hclose : p.verdict x.segment x.policy = .mergeThenClose → handed.isSome = true) :
    (after.offers = offers ++ [x] ∨ (∃ a, handed = some (a, offers ++ [x])) ↔
      p.verdict x.segment x.policy = .merge ∨ p.verdict x.segment x.policy = .mergeThenClose) ∧
    (p.verdict x.segment x.policy = .merge ∨ p.verdict x.segment x.policy = .mergeThenClose →
      (after.pending = none ↔ p.verdict x.segment x.policy = .mergeThenClose)) := by
  -- There were offers before, so one that comes behind them is not the only one,
  -- and there are more with it than without it.
  have halone : [x] ≠ offers ++ [x] := fun hsame =>
    hne (List.append_left_eq_self.mp hsame.symm)
  have hmore : ∀ (aggregate : Option Aggregate) (a : Aggregate),
      (aggregate.map fun a => (a, offers)) ≠ some (a, offers ++ [x]) := by
    intro aggregate a hsame
    rcases Option.map_eq_some_iff.mp hsame with ⟨_, _, heq⟩
    have hlength := congrArg (fun e : Aggregate × List Offer => e.2.length) heq
    simp only [List.length_append, List.length_singleton] at hlength
    omega
  cases course with
  | merged x p offers m verdict => simp [verdict]
  | dropped x p offers m appends =>
      rcases appends with hverdict | hverdict
      · exact absurd (hopen hverdict) Bool.false_ne_true
      · exact absurd (hclose hverdict) Bool.false_ne_true
  | mergedClosing x p offers m aggregate verdict closing =>
      rcases aggregate with _ | aggregate
      · exact absurd (hclose verdict) Bool.false_ne_true
      · simp [verdict]
  | closed arrival p offers m aggregate apart closing =>
      have hapart := apart x rfl
      simp only [hapart, iff_false, false_implies, and_true, not_or, not_exists]
      exact ⟨fun hsame => List.append_ne_nil_of_right_ne_nil _ (List.cons_ne_nil _ _) hsame.symm,
        hmore aggregate⟩
  | closedOpening x p offers m aggregate timer frame apart opens new closing =>
      simp only [apart, iff_false, false_implies, and_true, not_or, not_exists]
      exact ⟨halone, hmore aggregate⟩

end Course

/-- Storage is not going to refuse to append the segment or to give the aggregate
    out. -/
structure Services.Permits (s : Services) (p : Pending) (segment : Segment) : Prop where
  extend : ∃ length,
    (s.extendFrame p.frame segment.frame segment.headers.length).1 = .ok length
  take : s.frames.outages.take.call.1 = false

namespace Services

variable {s : Services} {p : Pending} {segment : Segment} {members : List Segment}

theorem appendSegment_permitted (permits : s.Permits p segment) :
    (∃ p', (s.appendSegment p segment).1 = .ok p') ∧
      (s.appendSegment p segment).2.frames.outages.take = s.frames.outages.take := by
  rcases permits.extend with ⟨length, hlength⟩
  rcases s.extendFrame_cases p.frame segment.frame segment.headers.length with
    ⟨outages, htake, ⟨cause, hextend⟩ | ⟨frame, hframe, hextend⟩⟩
  · rw [hextend] at hlength
    cases hlength
  · simp only [appendSegment, hextend, logSize_eq]
    exact ⟨⟨_, rfl⟩, htake⟩

theorem closeAggregate_permitted (holds : s.Holds (some p) members)
    (htake : s.frames.outages.take.call.1 = false) :
    (s.closeAggregate p).1.isSome = true := by
  rcases holds with ⟨first, rest, stored, rfl, hstored, m⟩
  rcases m.represents with ⟨aggregate, hsealed, _⟩
  have htaken : (s.takeFrame p.frame).1 = some stored := by
    rcases hcall : s.frames.outages.take.call with ⟨refused, ahead⟩
    rw [hcall] at htake
    simp only at htake
    simp only [takeFrame, FrameDepot.take, hcall, htake, Bool.false_eq_true, if_false,
      FrameStorage.take_eq]
    exact hstored
  rcases hresult : s.takeFrame p.frame with ⟨taken, s₁⟩
  rw [hresult] at htaken
  simp only at htaken
  simp only [closeAggregate, hresult, htaken, hsealed, Option.isSome_some]

/-- A segment that the verdict accepts is appended, and the aggregate is handed
    out if it closes it. -/
theorem onPending_permitted (s : Services) (flow : UInt64) (p : Pending) (segment : Segment)
    (policy : Policy) (extras : Extras) (holds : s.Holds (some p) members)
    (genuine : segment.Genuine) (permits : s.Permits p segment) :
    (p.verdict segment policy = .merge →
      (s.onPending flow p segment policy extras).flow.isSome = true) ∧
    (p.verdict segment policy = .mergeThenClose →
      (s.onPending flow p segment policy extras).output.aggregate.isSome = true) := by
  constructor
  · intro verdict
    rcases (appendSegment_permitted permits).1 with ⟨p', hp'⟩
    rcases hresult : s.appendSegment p segment with ⟨appended, s₁⟩
    rw [hresult] at hp'
    simp only at hp'
    simp only [onPending, verdict, merge, hresult, hp', Option.isSome_some]
  · intro verdict
    have hreleased : (s.releaseTimer p.timer).Permits p segment := ⟨permits.extend, permits.take⟩
    rcases appendSegment_permitted hreleased with ⟨⟨p', hp'⟩, htake⟩
    have hholds := (appendSegment_spares (s.releaseTimer p.timer) p segment policy holds genuine
      (Or.inr verdict)).2
    rcases hresult : (s.releaseTimer p.timer).appendSegment p segment with ⟨appended, s₁⟩
    rw [hresult] at hp' htake hholds
    simp only at hp' htake hholds
    subst hp'
    rcases hholds with ⟨_, herror⟩ | ⟨_, hsome, _, hholds⟩
    · cases herror
    · cases hsome
      have hclosed := closeAggregate_permitted hholds (htake ▸ permits.take)
      simp only [onPending, verdict, mergeThenClose, hresult, Output.ofClosing]
      exact hclosed

end Services

namespace Dossier

variable {d : Dossier}

/-- The offer goes into the aggregate that is pending on the flow: behind the
    offers that it is made of, it is part of what is pending afterwards, or of what
    is handed out. -/
def Joins (d : Dossier) (trial : Trial) (flow : UInt64) (x : Offer) : Prop :=
  (d.endure trial).offers flow = d.offers flow ++ [x] ∨
    ∃ c, (d.endure trial).closures = d.closures ++ [c] ∧ c.flow = flow ∧
      c.offers = d.offers flow ++ [x]

/-- Of a call it can be told whether its offer goes into the aggregate. -/
theorem Calls.joins_iff {trial : Trial} {flow : UInt64}
    {handed : Option (Aggregate × List Offer)} (calls : d.Calls trial flow handed) (x : Offer) :
    d.Joins trial flow x ↔ (d.endure trial).offers flow = d.offers flow ++ [x] ∨
      ∃ a, handed = some (a, d.offers flow ++ [x]) := by
  unfold Joins
  rw [calls.closures]
  refine or_congr_right ?_
  constructor
  · rintro ⟨c, hc, _, hoffers⟩
    rcases handed with _ | handed
    · simp at hc
    · simp only [Option.toList_some, List.map_singleton, List.append_cancel_left_eq,
        List.cons.injEq, and_true] at hc
      rw [← hc] at hoffers
      exact ⟨handed.1, congrArg some (Prod.ext rfl hoffers)⟩
  · rintro ⟨a, rfl⟩
    exact ⟨_, rfl, rfl, rfl⟩

/-- A segment that continues the aggregate goes into it exactly if there is room,
    and closes it exactly if it asks for that or uses up the room. -/
theorem joins_iff (kept : d.roster.Kept) (hstores : d.world.stores < 2 ^ 64) (flow : UInt64)
    (p : Pending) (hp : d.world.engine.pending flow = some p) (frame : Frame) (policy : Policy)
    (extras : Extras) (segment : Segment) (hsegment : frame.segment? = some segment)
    (hseq : segment.headers.seq = p.nextSeq) (haccepts : p.accepts segment.headers = true)
    (permits : d.world.engine.services.Permits p segment) :
    (d.Joins (.step (.offer flow frame policy extras)) flow ⟨segment, policy, extras⟩ ↔
      p.length.toNat + segment.payload.length ≤ policy.sizeLimit) ∧
    (d.Joins (.step (.offer flow frame policy extras)) flow ⟨segment, policy, extras⟩ →
      ((d.endure (.step (.offer flow frame policy extras))).world.engine.pending flow = none ↔
        segment.headers.pushes = true ∨
        p.length.toNat + segment.payload.length = policy.sizeLimit ∨
        policy.segmentLimit ≤ p.segments + 1)) := by
  have hoffer := Trial.offer?_of_segment? flow frame policy extras segment hsegment
  have hgenuine := genuine_of_offer? _ flow _ hoffer
  have hheld := kept.held flow
  rw [show d.roster.world.engine.pending flow = _ from hp] at hheld
  have hne : d.offers flow ≠ [] := by
    intro hnil
    refine hheld.ne_nil ?_
    simp only [roster, hnil, List.map_nil]
  -- What the verdict is about, and when it is which.
  have hsize := p.sizeWith_eq segment hgenuine ((p.accepts_iff _).mp haccepts).2.2.2
  have happends := p.appends_iff segment policy
  simp only [hseq, haccepts, true_and, hsize] at happends
  have hmerge := p.verdict_eq_merge_iff segment policy
  simp only [hsize, Pending.closedBy, decide_eq_false_iff_not] at hmerge
  -- What the call leaves and hands out is what its turn does.
  have hturn := Services.onPending_permitted d.world.engine.services flow p segment policy extras
    hheld hgenuine permits
  rcases d.world.engine.offer_accepted flow frame policy extras segment hsegment with
    ⟨houtput, hflows, _⟩
  have hpending := (hflows flow).trans (if_pos rfl)
  rcases calls_offer kept hstores flow frame policy extras segment hsegment with
    ⟨handed, hcalls, haggregate⟩
  simp only [Engine.turn, hp] at houtput hpending
  rw [← hpending, ← houtput, haggregate, Option.isSome_map] at hturn
  have hcourse := hcalls.course
  rw [hoffer, standing, hp] at hcourse
  have hjoins := hcourse.joins_iff hne hturn.1 hturn.2
  rw [hcalls.joins_iff]
  refine ⟨hjoins.1.trans happends, fun hjoined => ?_⟩
  have happended := hjoins.1.mp hjoined
  refine (hjoins.2 happended).trans ?_
  rcases happended with hverdict | hverdict
  · have hroom := (hmerge.mp hverdict).2
    simp only [hverdict, reduceCtorEq, hroom]
  · have hfull : ¬ p.verdict segment policy = .merge := by
      simp only [hverdict, reduceCtorEq, not_false_eq_true]
    rw [hmerge] at hfull
    simp only [hverdict, or_true, true_and, not_not] at hfull
    simp only [hverdict, hfull]

/-- The limits of the calls are kept, and what is handed out states its true
    lengths. -/
structure Limited (d : Dossier) : Prop where
  account : d.Accounts
  /-- What is pending is no larger than the call allowed that put the last segment
      in, or than a length field can say. -/
  pending : ∀ flow p, d.world.engine.pending flow = some p → ∃ stored x,
    d.world.engine.services.stored? p.frame = some stored ∧ p.length.toNat = stored.length ∧
    (d.offers flow).getLast? = some x ∧ stored.length ≤ x.policy.sizeLimit ∧
    stored.length ≤ maxAggregateSize
  /-- Neither is what was handed out. -/
  handed : ∀ c ∈ d.closures, ∃ x, c.offers.getLast? = some x ∧
    c.aggregate.length ≤ x.policy.sizeLimit ∧ c.aggregate.length ≤ maxAggregateSize
  measured : ∀ c ∈ d.closures, 2 ≤ c.aggregate.segments →
    ∃ h, Headers.decode c.aggregate.frame = .ok h ∧
      h.Measures c.aggregate.frame c.aggregate.checksumComplete

/-- The limits of a flow are reached exactly, under the one policy that it has. -/
structure Exact (d : Dossier) (flow : UInt64) (policy : Policy) : Prop where
  below : ∀ p, d.world.engine.pending flow = some p →
    p.segments < policy.segmentLimit ∧ p.length.toNat < policy.sizeLimit
  handed : ∀ c ∈ d.closures, c.flow = flow → c.aggregate.segments ≤ policy.segmentLimit
  /-- A segment that continues what is pending goes into it exactly if there is
      room, and closes it exactly if it asks for that or reaches a limit. -/
  joins : ∀ p frame extras segment, d.world.engine.pending flow = some p →
    frame.segment? = some segment → segment.headers.seq = p.nextSeq →
    p.differs segment.headers = false → p.acksLess segment.headers = false →
    p.complete = false → segment.headers.mergeable = true →
    d.world.engine.services.Permits p segment →
    (d.Joins (.step (.offer flow frame policy extras)) flow ⟨segment, policy, extras⟩ ↔
      p.length.toNat + segment.payload.length ≤ policy.sizeLimit) ∧
    (d.Joins (.step (.offer flow frame policy extras)) flow ⟨segment, policy, extras⟩ →
      ((d.endure (.step (.offer flow frame policy extras))).world.engine.pending flow = none ↔
        segment.headers.pushes = true ∨
        p.length.toNat + segment.payload.length = policy.sizeLimit ∨
        p.segments + 1 = policy.segmentLimit))

/-- What is pending was left below the limits of the call that put the last segment
    in, and what was handed out is within them, in every run. -/
theorem limited_run (setup : Setup) (trials : List Trial)
    (hstores : (run setup trials).world.stores < 2 ^ 64) :
    (∀ flow, Course.Bounded ((run setup trials).world.engine.pending flow)
      ((run setup trials).offers flow)) ∧
    ∀ c ∈ (run setup trials).closures, c.aggregate.Within c.offers := by
  refine run_courses setup trials (fun _ => Course.Bounded) (fun _ => Aggregate.Within) hstores
    (fun _ _ hp => by cases hp) ?_
  intro flow arrival before after handed harrival held bounded course
  exact course.limited held (fun x hx => (harrival x hx).1) bounded

end Dossier

/-- In every run, whatever storage and timers do, the limits of the calls are kept,
    and a flow under one policy reaches its limits exactly. -/
theorem limits_exact (setup : Setup) (trials : List Trial)
    (hstores : (Dossier.run setup trials).world.stores < 2 ^ 64) :
    (Dossier.run setup trials).Limited ∧
      ∀ flow policy, (∀ trial ∈ trials, ∀ x ∈ trial.offer? flow, x.policy = policy) →
        (Dossier.run setup trials).Exact flow policy := by
  have hkept := Dossier.kept_run setup trials hstores
  have haccount := Dossier.accounts_run setup trials hstores
  rcases Dossier.closures_run setup trials hstores with ⟨hoffers, hclosures⟩
  rcases Dossier.limited_run setup trials hstores with ⟨hbounded, hwithin⟩
  generalize Dossier.run setup trials = d at *
  constructor
  · constructor
    case account => exact haccount
    case pending =>
      intro flow p hp
      have hheld := hkept.held flow
      rw [show d.roster.world.engine.pending flow = _ from hp] at hheld
      rcases hheld with ⟨first, rest, stored, _, hstored, m⟩
      rcases hbounded flow p hp with ⟨x, hlast, below⟩
      rcases m.length_eq with ⟨hlength, hmax⟩
      exact ⟨stored, x, hstored, hlength, hlast, Nat.le_of_lt (hlength ▸ below.length), hmax⟩
    case handed =>
      intro c hc
      rcases (hwithin c hc).length with ⟨x, hlast, hlength⟩
      exact ⟨x, hlast, hlength, Nat.le_trans hlength x.policy.sizeLimit_le⟩
    case measured => exact fun c hc hseveral => (hclosures c hc).1.measures hseveral
  · intro flow policy huniform
    -- Whatever an aggregate of the flow is made of was offered under the one policy.
    have hpolicy : ∀ x, Offered trials flow x → x.policy = policy := by
      rintro x ⟨trial, htrial, hx⟩
      exact huniform trial htrial x hx
    have hbelow : ∀ p, d.world.engine.pending flow = some p → p.Below policy := by
      intro p hp
      rcases hbounded flow p hp with ⟨x, hlast, below⟩
      exact hpolicy x (hoffers flow x (List.mem_of_getLast? hlast)) ▸ below
    constructor
    case below => exact fun p hp => ⟨(hbelow p hp).segments, (hbelow p hp).length⟩
    case handed =>
      rintro c hc rfl
      rcases (hwithin c hc).segments with ⟨x, hx, hsegments⟩
      exact hpolicy x ((hclosures c hc).2 x hx) ▸ hsegments
    case joins =>
      intro p frame extras segment hp hsegment hseq hdiffers hacks hcomplete hmergeable permits
      have haccepts : p.accepts segment.headers = true := by
        simp only [Pending.accepts, hdiffers, hacks, hcomplete, hmergeable, Bool.false_eq_true,
          not_false_eq_true, and_self, decide_true]
      have hjoins := Dossier.joins_iff hkept hstores flow p hp frame policy extras segment hsegment
        hseq haccepts permits
      -- Below the limit, to have one more segment is to reach it at most.
      have hone : policy.segmentLimit ≤ p.segments + 1 ↔ p.segments + 1 = policy.segmentLimit := by
        have hroom := (hbelow p hp).segments
        omega
      rw [hone] at hjoins
      exact hjoins

/-- A policy that leaves four octets for payload behind plain headers. -/
def narrowPolicy : Policy :=
  { plainPolicy with
    sizeLimit := 44
    sizeLimit_le := by decide }

/-- One aggregate is closed by a segment that does not fit, and another waits with
    room for two octets. -/
def nearlyFull : List Trial := [
  .step (.offer 7 (plainFrame 1 [1, 2]) narrowPolicy {}),
  .step (.offer 7 (plainFrame 3 [3]) narrowPolicy {}),
  .step (.offer 7 (plainFrame 4 [4, 5]) narrowPolicy {})
]

theorem limits_exact_nearlyFull :
    (Dossier.run {} nearlyFull).world.stores < 2 ^ 64 ∧ (Dossier.run {} nearlyFull).Limited ∧
      (Dossier.run {} nearlyFull).closures.map (fun c => c.aggregate.segments) = [2] ∧
      ∃ segment, (plainFrame 6 [6, 7]).segment? = some segment ∧
        (Dossier.run {} nearlyFull).Joins (.step (.offer 7 (plainFrame 6 [6, 7]) narrowPolicy {})) 7
          ⟨segment, narrowPolicy, {}⟩ ∧
        ((Dossier.run {} nearlyFull).endure
          (.step (.offer 7 (plainFrame 6 [6, 7]) narrowPolicy {}))).world.engine.pending 7
            = none := by
  have hstores : (Dossier.run {} nearlyFull).world.stores < 2 ^ 64 := by decide +kernel
  have huniform : ∀ trial ∈ nearlyFull, ∀ x ∈ trial.offer? 7, x.policy = narrowPolicy := by
    decide +kernel
  have hlimits := limits_exact {} nearlyFull hstores
  have hexact := hlimits.2 7 narrowPolicy huniform
  -- The segment continues what is pending, and storage has room for it.
  have hcontinues : ((plainFrame 6 [6, 7]).segment?.any fun segment =>
      ((Dossier.run {} nearlyFull).world.engine.pending 7).any fun p =>
        decide (segment.headers.seq = p.nextSeq ∧ p.differs segment.headers = false ∧
          p.acksLess segment.headers = false ∧ p.complete = false ∧
          segment.headers.mergeable = true ∧
          p.length.toNat + segment.payload.length = 44 ∧
          ((Dossier.run {} nearlyFull).world.engine.services.extendFrame p.frame segment.frame
            segment.headers.length).1 = .ok 44)) = true := by decide +kernel
  rcases (Option.any_eq_true _ _).mp hcontinues with ⟨segment, hsegment, hpending⟩
  rcases (Option.any_eq_true _ _).mp hpending with ⟨p, hp, hfields⟩
  rcases of_decide_eq_true hfields with
    ⟨hseq, hdiffers, hacks, hcomplete, hmergeable, hsize, hextend⟩
  rcases hexact.joins p _ {} segment hp hsegment hseq hdiffers hacks hcomplete hmergeable
    ⟨⟨44, hextend⟩, by decide +kernel⟩ with ⟨hjoins, hcloses⟩
  have hjoined := hjoins.mpr (Nat.le_of_eq hsize)
  exact ⟨hstores, hlimits.1, by decide +kernel, segment, hsegment, hjoined,
    (hcloses hjoined).mpr (Or.inr (Or.inl hsize))⟩

end ReceiveOffload
