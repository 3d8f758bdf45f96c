import ReceiveOffload.Proofs.Metadata
import ReceiveOffload.Proofs.Settlements

/-!
# The Course of a Call

What becomes of each segment is one account of a call. This is the account of the
flow: the aggregate that was pending, the one that is pending now with all of its
fields, the one that was handed out, and what was written to the metadata. What a
policy promises is read off it, since it has the verdict that was passed under
the policy in every case.

A flow takes the same course whether its aggregate is closed by a segment that
does not continue it, on request, or by its timer. So `Course` has one case for
all three, and a segment that arrives is optional in it.

Whether storage refused something is not in the account. A frame that could not
be taken out shows as an aggregate that was not handed out, and its count was
written all the same.

## Main definitions

* `Offer`: A segment and what it is offered under.
* `Pending.extended`, `Pending.sized`: The aggregate after a segment was appended
  and after its size was written.
* `Pending.writeSize`, `Pending.writeCount`: What is written to the metadata.
* `Standing`, `Standing.Held`: How a flow stands, and that its aggregate was merged of
  its segments.
* `Course`: What a call makes of its flow.
* `Turn.Runs`: A call takes one of the courses.

## Theorems

* `Services.onIdle_course`, `Services.onPending_course`: A segment that is
  offered.
* `Services.closeAggregate_course`: Closing an aggregate.
* `Course.offers_eq`, `Course.handed_eq`: Which offers an aggregate was made of can
  be told from outside.
-/

namespace ReceiveOffload

/-- A segment, and the policy and the extras that it is offered under. -/
structure Offer where
  segment : Segment
  policy : Policy
  extras : Extras
  deriving DecidableEq, Repr

/-- The aggregate that the segment opens, before its size is written. -/
def Offer.opening (x : Offer) (timer : TimerId) (frame : FrameId) : Pending :=
  .ofSegment x.segment timer frame x.policy x.extras

namespace Pending

/-- The aggregate after a segment was appended, before its size is written. -/
def extended (p : Pending) (segment : Segment) : Pending :=
  p.grow segment.headers (p.sizeWith segment)

/-- The aggregate after a segment size was written, if it is to have that. -/
def sized (p : Pending) : Pending :=
  if p.extras.logSizes then p.logged else p

/-- The metadata after the size of a segment of the aggregate was written. -/
def writeSize (p : Pending) (h : Headers) (metadata : Metadata) : Metadata :=
  if p.extras.logSizes then
    metadata.write (Metadata.sizeAddress p.metadata p.sizesLogged.toNat)
      (Octets.ofWord16 (UInt16.ofNat h.payloadLength))
  else metadata

/-- The metadata after the segments of the aggregate were counted. -/
def writeCount (p : Pending) (metadata : Metadata) : Metadata :=
  metadata.write (Metadata.countAddress p.metadata) (Octets.ofWord32 (UInt32.ofNat p.segments))

@[simp] theorem frame_sized (p : Pending) : p.sized.frame = p.frame := by
  unfold sized
  split <;> rfl

@[simp] theorem segments_sized (p : Pending) : p.sized.segments = p.segments := by
  unfold sized
  split <;> rfl

@[simp] theorem length_sized (p : Pending) : p.sized.length = p.length := by
  unfold sized
  split <;> rfl

@[simp] theorem metadata_sized (p : Pending) : p.sized.metadata = p.metadata := by
  unfold sized
  split <;> rfl

@[simp] theorem statistics_sized (p : Pending) : p.sized.statistics = p.statistics := by
  unfold sized
  split <;> rfl

@[simp] theorem extendedStatistics_sized (p : Pending) :
    p.sized.extendedStatistics = p.extendedStatistics := by
  unfold sized
  split <;> rfl

end Pending

/-- How a flow stands: what is pending, the offers that it is made of, oldest
    first, and the metadata, which all flows share. -/
structure Standing where
  pending : Option Pending
  offers : List Offer
  metadata : Metadata

/-- The segments of the pending aggregate. -/
def Standing.members (standing : Standing) : List Segment :=
  standing.offers.map Offer.segment

/-- The pending aggregate was merged of its segments. -/
def Standing.Held (standing : Standing) : Prop :=
  match standing.pending with
  | none => standing.offers = []
  | some p => ∃ first rest stored, standing.members = first :: rest ∧ Merged first p stored rest

/-- What a call makes of its flow: the offer that arrives, how the flow stands
    before and after, and the aggregate that is handed out, with the offers that it
    was made of. -/
inductive Course : Option Offer → (before after : Standing) → Option (Aggregate × List Offer) → Prop
  /-- Nothing is pending, and the segment does not open anything. -/
  | idle (x : Offer) (m : Metadata) : Course (some x) ⟨none, [], m⟩ ⟨none, [], m⟩ none
  | opened (x : Offer) (m : Metadata) (timer : TimerId) (frame : FrameId)
      (opens : x.segment.canOpen x.policy = true) :
      Course (some x) ⟨none, [], m⟩
        ⟨some (x.opening timer frame).sized, [x],
          (x.opening timer frame).writeSize x.segment.headers m⟩ none
  | merged (x : Offer) (p : Pending) (offers : List Offer) (m : Metadata)
      (verdict : p.verdict x.segment x.policy = .merge) :
      Course (some x) ⟨some p, offers, m⟩
        ⟨some (p.extended x.segment).sized, offers ++ [x],
          (p.extended x.segment).writeSize x.segment.headers m⟩ none
  /-- The segment cannot be appended and takes the aggregate with it. -/
  | dropped (x : Offer) (p : Pending) (offers : List Offer) (m : Metadata)
      (appends : p.verdict x.segment x.policy = .merge
        ∨ p.verdict x.segment x.policy = .mergeThenClose) :
      Course (some x) ⟨some p, offers, m⟩ ⟨none, [], m⟩ none
  /-- The segment is appended and closes the aggregate. -/
  | mergedClosing (x : Offer) (p : Pending) (offers : List Offer) (m : Metadata)
      (aggregate : Option Aggregate)
      (verdict : p.verdict x.segment x.policy = .mergeThenClose)
      (closing : ∀ a ∈ aggregate, Closing a ((offers ++ [x]).map Offer.segment)) :
      Course (some x) ⟨some p, offers, m⟩
        ⟨none, [], (p.extended x.segment).sized.writeCount
          ((p.extended x.segment).writeSize x.segment.headers m)⟩
        (aggregate.map fun a => (a, offers ++ [x]))
  /-- The aggregate is closed, and a segment that arrives is not part of it. -/
  | closed (arrival : Option Offer) (p : Pending) (offers : List Offer) (m : Metadata)
      (aggregate : Option Aggregate)
      (apart : ∀ x ∈ arrival, ¬ (p.verdict x.segment x.policy = .merge
        ∨ p.verdict x.segment x.policy = .mergeThenClose))
      (closing : ∀ a ∈ aggregate, Closing a (offers.map Offer.segment)) :
      Course arrival ⟨some p, offers, m⟩ ⟨none, [], p.writeCount m⟩
        (aggregate.map fun a => (a, offers))
  /-- The aggregate is closed, and the segment opens the next one. -/
  | closedOpening (x : Offer) (p : Pending) (offers : List Offer) (m : Metadata)
      (aggregate : Option Aggregate) (timer : TimerId) (frame : FrameId)
      (apart : ¬ (p.verdict x.segment x.policy = .merge
        ∨ p.verdict x.segment x.policy = .mergeThenClose))
      (opens : x.segment.canOpen x.policy = true) (new : frame ≠ p.frame)
      (closing : ∀ a ∈ aggregate, Closing a (offers.map Offer.segment)) :
      Course (some x) ⟨some p, offers, m⟩
        ⟨some (x.opening timer frame).sized, [x],
          (x.opening timer frame).writeSize x.segment.headers (p.writeCount m)⟩
        (aggregate.map fun a => (a, offers))

/-- A call takes one of the courses of a flow that stands so. -/
def Turn.Runs (turn : Turn) (arrival : Option Offer) (before : Standing) : Prop :=
  ∃ after handed, Course arrival before after handed ∧ turn.flow = after.pending ∧
    turn.services.metadata = after.metadata ∧ turn.output.aggregate = handed.map Prod.fst

/-- Which offers an aggregate was made of makes no difference to whether there is one. -/
theorem handed_map_fst (aggregate : Option Aggregate) (offers : List Offer) :
    (aggregate.map fun a => (a, offers)).map Prod.fst = aggregate := by
  rw [Option.map_map]
  exact Option.map_id'

/-- An aggregate that is handed out on closing was made of the members. -/
theorem Yield.closing {members handed lost : List Segment} {aggregate : Option Aggregate}
    (yields : Yield members aggregate handed lost) : ∀ a ∈ aggregate, Closing a members := by
  intro a ha
  cases yields with
  | given aggregate closing =>
      rw [Option.mem_some_iff] at ha
      exact ha ▸ closing
  | gone => cases ha

namespace Services

variable {s : Services} {p : Pending} {members : List Segment} {offers : List Offer}

/-- A size is written to the aggregate and to the metadata, or to neither. -/
theorem logSize_eq (s : Services) (p : Pending) (h : Headers) :
    s.logSize p h = (p.sized, { s with metadata := p.writeSize h s.metadata }) := by
  unfold logSize Pending.sized Pending.writeSize
  split <;> rfl

/-- A segment that is handed out by itself is not written down. -/
theorem metadata_relay (s : Services) (frame : Frame) :
    (s.relay frame).2.metadata = s.metadata := by
  unfold relay
  rcases hstore : s.storeFrame frame with ⟨cause | id, s₁⟩
  all_goals have hfirst : s₁.metadata = s.metadata := congrArg (fun r => r.2.metadata) hstore.symm
  · exact hfirst
  · rcases htake : s₁.takeFrame id with ⟨_ | relayed, s₂⟩
    all_goals
      simp only [htake]
      exact (congrArg (fun r => r.2.metadata) htake.symm).trans hfirst

theorem metadata_renewTimer (s : Services) (flow : UInt64) (timer : TimerId) (policy : Policy) :
    (s.renewTimer flow timer policy).2.metadata = s.metadata := by
  unfold renewTimer
  rcases hrestart : s.restartTimer timer with ⟨cause | _, s₁⟩
  all_goals exact congrArg (fun r => r.2.metadata) hrestart.symm

/-- Closing hands out the members or loses them, and counts them either way. -/
theorem closeAggregate_course (s : Services) (p : Pending) (holds : s.Holds (some p) members) :
    (∀ a ∈ (s.closeAggregate p).1, Closing a members) ∧
      (s.closeAggregate p).2.metadata = p.writeCount s.metadata := by
  rcases (s.closeAggregate_yields p holds).1 with ⟨handed, lost, yields⟩
  refine ⟨yields.closing, ?_⟩
  -- The count is written whether there was a frame to seal or not.
  rcases htake : s.takeFrame p.frame with ⟨taken, s₁⟩
  have htaken : s₁.metadata = s.metadata := congrArg (fun r => r.2.metadata) htake.symm
  simp only [closeAggregate, htake]
  rw [Pending.writeCount, ← htaken]
  split <;> rfl

/-- Nothing is written down unless the aggregate is opened. -/
theorem openAggregate_course (s : Services) (flow : UInt64) (x : Offer) (timer : TimerId) :
    ((s.openAggregate flow x.segment timer x.policy x.extras).1 = none ∧
      (s.openAggregate flow x.segment timer x.policy x.extras).2.metadata = s.metadata) ∨
    ((s.openAggregate flow x.segment timer x.policy x.extras).1
        = some (x.opening timer s.frames.storage.next).sized ∧
      (s.openAggregate flow x.segment timer x.policy x.extras).2.metadata
        = (x.opening timer s.frames.storage.next).writeSize x.segment.headers s.metadata) := by
  rcases s.storeFrame_cases x.segment.frame with ⟨outages, _, ⟨cause, hstore⟩ | hstore⟩
  · simp only [openAggregate, hstore]
    exact Or.inl ⟨trivial, rfl⟩
  · simp only [openAggregate, hstore, logSize_eq]
    exact Or.inr ⟨rfl, rfl⟩

/-- Nor is it unless the segment is appended. -/
theorem appendSegment_course (s : Services) (p : Pending) (segment : Segment)
    (holds : s.Holds (some p) members) (genuine : segment.Genuine) :
    ((∃ cause, (s.appendSegment p segment).1 = .error cause) ∧
      (s.appendSegment p segment).2.metadata = s.metadata) ∨
    ((s.appendSegment p segment).1 = .ok (p.extended segment).sized ∧
      (s.appendSegment p segment).2.metadata
        = (p.extended segment).writeSize segment.headers s.metadata) := by
  rcases holds with ⟨first, rest, stored, _, hstored, m⟩
  rcases s.extendFrame_cases p.frame segment.frame segment.headers.length with
    ⟨outages, _, ⟨cause, hextend⟩ | ⟨frame, hframe, hextend⟩⟩
  · simp only [appendSegment, hextend]
    exact Or.inl ⟨⟨cause, rfl⟩, trivial⟩
  · -- What storage says the length is, is what the verdict expected.
    rw [hstored, Option.some.injEq] at hframe
    subst hframe
    rw [p.length_append_eq stored segment m.length_eq.1 genuine] at hextend
    simp only [appendSegment, hextend, logSize_eq]
    exact Or.inr ⟨rfl, rfl⟩

/-- A segment that finds nothing pending opens an aggregate, or nothing happens. -/
theorem onIdle_course (s : Services) (flow : UInt64) (x : Offer) :
    (s.onIdle flow x.segment x.policy x.extras).Runs (some x) ⟨none, [], s.metadata⟩ := by
  unfold onIdle
  by_cases hopens : x.segment.canOpen x.policy = true
  case neg =>
    rw [if_neg hopens]
    exact ⟨_, _, .idle x s.metadata, rfl, rfl, rfl⟩
  rw [if_pos hopens]
  rcases harm : s.armTimer (x.policy.timerSetup flow) with ⟨cause | timer, s₁⟩
  all_goals have harmed : s₁.metadata = s.metadata := congrArg (fun r => r.2.metadata) harm.symm
  · exact ⟨_, _, .idle x s.metadata, rfl, harmed, rfl⟩
  · have hopen := s₁.openAggregate_course flow x timer
    simp only
    rcases hopened : s₁.openAggregate flow x.segment timer x.policy x.extras with ⟨opened, s₂⟩
    rw [hopened, harmed] at hopen
    -- A frame that storage refused leaves the flow as idle as it was.
    rcases hopen with ⟨rfl, hmetadata⟩ | ⟨rfl, hmetadata⟩
    · exact ⟨_, _, .idle x s.metadata, rfl, hmetadata, rfl⟩
    · exact ⟨_, _, .opened x s.metadata timer _ hopens, rfl, hmetadata, rfl⟩

/-- A segment that is merged either makes it into the aggregate or takes it along. -/
theorem merge_course (s : Services) (flow : UInt64) (p : Pending) (x : Offer)
    (holds : s.Holds (some p) (offers.map Offer.segment)) (genuine : x.segment.Genuine)
    (verdict : p.verdict x.segment x.policy = .merge) :
    (s.merge flow p x.segment).Runs (some x) ⟨some p, offers, s.metadata⟩ := by
  have happend := s.appendSegment_course p x.segment holds genuine
  unfold merge
  rcases hresult : s.appendSegment p x.segment with ⟨appended, s₁⟩
  rw [hresult] at happend
  rcases happend with ⟨⟨cause, rfl⟩, hmetadata⟩ | ⟨rfl, hmetadata⟩
  · exact ⟨_, _, .dropped x p offers s.metadata (Or.inl verdict), rfl, hmetadata, rfl⟩
  · exact ⟨_, _, .merged x p offers s.metadata verdict, rfl, hmetadata, rfl⟩

/-- So does one that is merged last. The aggregate that it closes counts it. -/
theorem mergeThenClose_course (s : Services) (flow : UInt64) (p : Pending) (x : Offer)
    (holds : s.Holds (some p) (offers.map Offer.segment)) (genuine : x.segment.Genuine)
    (verdict : p.verdict x.segment x.policy = .mergeThenClose) :
    (s.mergeThenClose flow p x.segment).Runs (some x) ⟨some p, offers, s.metadata⟩ := by
  have happend := (s.releaseTimer p.timer).appendSegment_course p x.segment holds genuine
  have hspares := ((s.releaseTimer p.timer).appendSegment_spares p x.segment x.policy holds
    genuine (Or.inr verdict)).2
  unfold mergeThenClose
  rcases hresult : (s.releaseTimer p.timer).appendSegment p x.segment with ⟨appended, s₁⟩
  rw [hresult] at happend hspares
  rcases happend with ⟨⟨cause, rfl⟩, hmetadata⟩ | ⟨rfl, hmetadata⟩
  · exact ⟨_, _, .dropped x p offers s.metadata (Or.inr verdict), rfl, hmetadata, rfl⟩
  · -- What was appended to is closed, with the segment among its members.
    rcases hspares with ⟨_, herror⟩ | ⟨p', hsome, _, hholds⟩
    · cases herror
    · cases hsome
      have hmembers : offers.map Offer.segment ++ [x.segment]
          = (offers ++ [x]).map Offer.segment := by
        rw [List.map_append, List.map_singleton]
      rcases s₁.closeAggregate_course _ hholds with ⟨hclosing, hcounted⟩
      rw [hmembers] at hclosing
      simp only at hmetadata
      rw [hmetadata] at hcounted
      exact ⟨_, _, .mergedClosing x p offers s.metadata _ verdict hclosing, rfl, hcounted,
        (handed_map_fst _ _).symm⟩

/-- An aggregate that was closed ahead of a segment, with what became of the
    segment after that of no further effect on the flow. -/
theorem runs_closed (s : Services) (p : Pending) (x : Offer) (turn : Turn)
    (apart : ¬ (p.verdict x.segment x.policy = .merge
      ∨ p.verdict x.segment x.policy = .mergeThenClose))
    (closing : ∀ a ∈ turn.output.aggregate, Closing a (offers.map Offer.segment))
    (hflow : turn.flow = none)
    (hmetadata : turn.services.metadata = p.writeCount s.metadata) :
    turn.Runs (some x) ⟨some p, offers, s.metadata⟩ := by
  refine ⟨_, _, .closed (some x) p offers s.metadata turn.output.aggregate ?_ closing, hflow,
    hmetadata, (handed_map_fst _ _).symm⟩
  intro y hy
  rw [Option.mem_some_iff] at hy
  exact hy ▸ apart

/-- A segment that is handed out behind its aggregate leaves nothing pending. -/
theorem closeThenPass_course (s : Services) (flow : UInt64) (p : Pending) (x : Offer)
    (holds : s.Holds (some p) (offers.map Offer.segment))
    (apart : ¬ (p.verdict x.segment x.policy = .merge
      ∨ p.verdict x.segment x.policy = .mergeThenClose)) :
    (s.closeThenPass flow p x.segment x.policy).Runs (some x) ⟨some p, offers, s.metadata⟩ := by
  rcases (s.releaseTimer p.timer).closeAggregate_course p holds with ⟨hclosing, hcounted⟩
  unfold closeThenPass
  rcases hclosed : (s.releaseTimer p.timer).closeAggregate p with ⟨aggregate, s₁⟩
  rw [hclosed] at hclosing hcounted
  have hrelay := s₁.metadata_relay x.segment.frame
  simp only at hclosing hcounted ⊢
  rcases hrelayed : s₁.relay x.segment.frame with ⟨cause | relayed, s₂⟩
  all_goals
    rw [hrelayed] at hrelay
    exact runs_closed s p x _ apart hclosing rfl (hrelay.trans hcounted)

/-- A segment that opens the next aggregate finds the one before it closed already,
    whether a timer can be had or not. -/
theorem closeThenOpen_course (s : Services) (flow : UInt64) (p : Pending) (x : Offer)
    (fresh : s.Fresh) (holds : s.Holds (some p) (offers.map Offer.segment))
    (apart : ¬ (p.verdict x.segment x.policy = .merge
      ∨ p.verdict x.segment x.policy = .mergeThenClose))
    (opens : x.segment.canOpen x.policy = true) :
    (s.closeThenOpen flow p x.segment x.policy x.extras).Runs (some x)
      ⟨some p, offers, s.metadata⟩ := by
  rcases s.closeAggregate_course p holds with ⟨hclosing, hcounted⟩
  have hspares := (s.closeAggregate_yields p holds).2
  -- The frame of the aggregate is stored, so it does not have the next identifier.
  have hnew : s.frames.storage.next ≠ p.frame := by
    rcases holds with ⟨_, _, stored, _, hstored, _⟩
    intro hsame
    rw [← hsame, fresh] at hstored
    cases hstored
  unfold closeThenOpen
  rcases hclosed : s.closeAggregate p with ⟨aggregate, s₁⟩
  rw [hclosed] at hclosing hcounted hspares
  have hrenew := s₁.metadata_renewTimer flow p.timer x.policy
  have hframes := frames_renewTimer s₁ flow p.timer x.policy
  simp only at hclosing hcounted hspares ⊢
  rcases hrenewed : s₁.renewTimer flow p.timer x.policy with ⟨cause | timer, s₂⟩
  all_goals
    rw [hrenewed] at hrenew hframes
    have hmetadata : s₂.metadata = p.writeCount s.metadata := hrenew.trans hcounted
  · exact runs_closed s p x _ apart hclosing rfl hmetadata
  · have hopen := s₂.openAggregate_course flow x timer
    simp only at hframes ⊢
    rw [hframes, hspares.next, hmetadata] at hopen
    rcases hopened : s₂.openAggregate flow x.segment timer x.policy x.extras with ⟨opened, s₃⟩
    rw [hopened] at hopen
    rcases hopen with ⟨rfl, hleft⟩ | ⟨rfl, hleft⟩
    · exact runs_closed s p x _ apart hclosing rfl hleft
    · exact ⟨_, _, .closedOpening x p offers s.metadata aggregate timer _ apart opens hnew hclosing,
        rfl, hleft, (handed_map_fst _ _).symm⟩

/-- A segment that finds an aggregate takes the course that its verdict says. -/
theorem onPending_course (s : Services) (flow : UInt64) (p : Pending) (x : Offer)
    (fresh : s.Fresh) (holds : s.Holds (some p) (offers.map Offer.segment))
    (genuine : x.segment.Genuine) :
    (s.onPending flow p x.segment x.policy x.extras).Runs (some x)
      ⟨some p, offers, s.metadata⟩ := by
  rcases s.onPending_cases flow p x.segment x.policy x.extras with
    ⟨verdict, hturn⟩ | ⟨verdict, hturn⟩ |
      ⟨hmerge, hlast, s', hframes, _, hmetadata, ⟨opens, hturn⟩ | ⟨_, hturn⟩⟩
  all_goals rw [hturn]
  · exact merge_course s flow p x holds genuine verdict
  · exact mergeThenClose_course s flow p x holds genuine verdict
  -- In the other cases what is noted first changes neither frames nor metadata.
  · rw [← hmetadata]
    exact closeThenOpen_course s' flow p x (fresh.of_frames_eq hframes)
      (holds.of_frames_eq hframes) (not_or.mpr ⟨hmerge, hlast⟩) opens
  · rw [← hmetadata]
    exact closeThenPass_course s' flow p x (holds.of_frames_eq hframes)
      (not_or.mpr ⟨hmerge, hlast⟩)

end Services

/-- A segment that the verdict accepts is one more of what the aggregate is merged
    of. -/
theorem Standing.Held.extended {p : Pending} {offers : List Offer} {m : Metadata} (x : Offer)
    (held : Standing.Held ⟨some p, offers, m⟩) (genuine : x.segment.Genuine)
    (appends : p.verdict x.segment x.policy = .merge
      ∨ p.verdict x.segment x.policy = .mergeThenClose) :
    Standing.Held ⟨some (p.extended x.segment).sized, offers ++ [x], m⟩ := by
  rcases held with ⟨first, rest, stored, hmembers, merged⟩
  have grown := merged.grown p stored rest x.segment x.policy genuine appends
  rw [p.length_append_eq stored x.segment merged.length_eq.1 genuine] at grown
  refine ⟨first, rest ++ [x.segment],
    stored.append (x.segment.frame.octets.drop x.segment.headers.length), ?_, ?_⟩
  · rw [Standing.members, List.map_append, List.map_singleton, ← List.cons_append, ← hmembers]
    rfl
  -- Whether a size was written is all the same to what the aggregate was merged of.
  · rw [Pending.sized]
    split
    · exact .logged _ _ _ grown
    · exact grown

/-- The offers that the aggregate is made of that is pending after an offer
    arrived: they became more if it is still the same aggregate, and otherwise it
    was opened by the offer. -/
def offersAfter (before after : Option Pending) (arrival : Option Offer) (offers : List Offer) :
    List Offer :=
  match after with
  | none => []
  | some p =>
    match arrival with
    | none => offers
    | some x => if before.map Pending.frame = some p.frame then offers ++ [x] else [x]

/-- The offers that an aggregate was made of that is handed out when an offer
    arrived: it counts them. -/
def offersWithin (aggregate : Aggregate) (arrival : Option Offer) (offers : List Offer) :
    List Offer :=
  if aggregate.segments = offers.length then offers else offers ++ arrival.toList

/-- An aggregate that is handed out says how many segments it was made of. -/
theorem Closing.segments_eq {aggregate : Aggregate} {members : List Segment}
    (h : Closing aggregate members) : aggregate.segments = members.length := by
  rcases h.represents with ⟨first, rest, rfl, represents⟩
  exact represents.segments

namespace Course

variable {arrival : Option Offer} {before after : Standing}
  {handed : Option (Aggregate × List Offer)}

/-- What is pending after a call is made of the offers that can be told from
    outside. -/
theorem offers_eq (course : Course arrival before after handed) :
    offersAfter before.pending after.pending arrival before.offers = after.offers := by
  cases course with
  | idle | dropped | mergedClosing | closed => rfl
  | opened x m timer frame opens =>
      simp only [offersAfter, Option.map_none, reduceCtorEq, if_false]
  | merged x p offers m verdict =>
      exact if_pos (by rw [Option.map_some, Pending.frame_sized]; rfl)
  -- The next aggregate has a new frame, by which it is told from the one before it.
  | closedOpening x p offers m aggregate timer frame apart opens new closing =>
      refine if_neg (fun hsame => new ?_)
      rw [Option.map_some, Option.some.injEq, Pending.frame_sized] at hsame
      exact hsame.symm

/-- So is what is handed out. -/
theorem handed_eq (course : Course arrival before after handed) :
    ∀ entry ∈ handed, offersWithin entry.1 arrival before.offers = entry.2 ∧
      Closing entry.1 (entry.2.map Offer.segment) := by
  intro entry hentry
  rw [Option.mem_def] at hentry
  cases course with
  | idle | opened | merged | dropped => cases hentry
  | mergedClosing x p offers m aggregate verdict closing =>
      rcases Option.map_eq_some_iff.mp hentry with ⟨a, ha, rfl⟩
      refine ⟨if_neg ?_, closing a ha⟩
      -- It has one segment more than was pending.
      have hcount := (closing a ha).segments_eq
      rw [List.length_map, List.length_append, List.length_singleton] at hcount
      simp only
      omega
  | closed arrival p offers m aggregate apart closing
  | closedOpening x p offers m aggregate timer frame apart opens new closing =>
      rcases Option.map_eq_some_iff.mp hentry with ⟨a, ha, rfl⟩
      refine ⟨if_pos ?_, closing a ha⟩
      rw [(closing a ha).segments_eq, List.length_map]

/-- What is pending after a call is made of what arrived and what there was. -/
theorem offers_subset (course : Course arrival before after handed) :
    after.offers ⊆ before.offers ++ arrival.toList := by
  cases course with
  | idle | dropped | mergedClosing | closed => exact List.nil_subset _
  | opened x | closedOpening x => exact List.subset_append_right _ _
  | merged x => exact List.Subset.refl _

/-- What is handed out is made of no more than that either. -/
theorem handed_subset (course : Course arrival before after handed) :
    ∀ entry ∈ handed, entry.2 ⊆ before.offers ++ arrival.toList := by
  intro entry hentry
  rw [← (course.handed_eq entry hentry).1, offersWithin]
  split
  · exact List.subset_append_left _ _
  · exact List.Subset.refl _

end Course

end ReceiveOffload
