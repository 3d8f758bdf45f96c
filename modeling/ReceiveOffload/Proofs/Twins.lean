import ReceiveOffload.Proofs.Courses

/-!
# Calls That Differ in Their Books

A caller chooses with every segment what its aggregate is to get besides, and a
policy says where the books of a flow are kept and how many there are. None of
that is ever looked at to decide anything. What is looked at comes from the
segments, from the limits of the policy, from storage and from the timers.

So two calls that differ in these choices alone are twins. They start with the
same storage, the same timers, and aggregates that are the same but for the
choices and the number of sizes that were written, and they end so. Counters,
metadata and notices differ as they like. What twins hand out is the same up to
the checksum of an aggregate of several segments. It is made as the caller chose,
and it is made in either case: a frame that could be decoded is sealed with
whatever checksum, so the choice cannot turn a success into a failure.

Nothing is assumed of storage and timers but that they do the same for both. An
aggregate that was lost for one twin was lost for the other.

## Main definitions

* `Policy.bare`, `Pending.bare`: Without the choices.
* `Aggregate.Twins`, `Output.Twins`: What is handed out is the same but for
  checksums.
* `Services.Twins`: Storage and timers are the same.
* `Services.Related`: What an operation gives is related, and the services after it
  are twins.
* `Turn.Twins`: A call comes to the same but for the books.

## Theorems

* `Aggregate.ofStored_twins`: Sealing fails for both or for neither.
* `Services.onIdle_twins`, `Services.onPending_twins`: A segment that is offered.
* `Services.closeAggregate_twins`: Closing an aggregate.
-/

namespace ReceiveOffload

/-- The policy without its books. -/
def Policy.bare (policy : Policy) : Policy :=
  { policy with statistics := 0, metadata := 0, extendedStatistics := false }

/-- The aggregate without what it is to get besides, and without its books. -/
def Pending.bare (p : Pending) : Pending :=
  { p with
    extras := {}
    extendedStatistics := false
    statistics := 0
    metadata := 0
    sizesLogged := 0 }

/-- The aggregates are the same. If they have several segments, the TCP checksums
    may be different. -/
structure Aggregate.Twins (a b : Aggregate) : Prop where
  alone : a.segments ≤ 1 → b = a
  same : b = { a with
    frame := { a.frame with octets := b.frame.octets }
    checksumComplete := b.checksumComplete }
  length : b.frame.octets.length = a.frame.octets.length
  octets : ∀ j, j ≠ a.transport.toNat + tcpChecksumOffset →
    j ≠ a.transport.toNat + tcpChecksumOffset + 1 → b.frame.octets[j]? = a.frame.octets[j]?
  /-- A consumer is told the same, but for the flags. -/
  consumer : { b.virtioHeader with flags := 0 } = { a.virtioHeader with flags := 0 }

/-- The outputs are the same but for the checksum of the aggregate. -/
structure Output.Twins (a b : Output) : Prop where
  disposition : b.disposition = a.disposition
  aggregate : Option.Rel Aggregate.Twins a.aggregate b.aggregate
  segment : b.segment = a.segment

/-- Storage and timers are the same. -/
structure Services.Twins (s t : Services) : Prop where
  frames : t.frames = s.frames
  timers : t.timers = s.timers

/-- The results are related, and storage and timers are the same after them. -/
inductive Services.Related {α : Type} (r : α → α → Prop) : α × Services → α × Services → Prop
  | intro {a b : α} {s t : Services} (hr : r a b) (h : s.Twins t) : Related r (a, s) (b, t)

namespace Pending

/-- How many sizes were written is one of the books. -/
theorem bare_sized (p : Pending) : p.sized.bare = p.bare := by
  unfold sized
  split <;> rfl

/-- The verdict is passed without a look at the books. -/
theorem verdict_congr {p q : Pending} {policy policy' : Policy} (hp : q.bare = p.bare)
    (hpolicy : policy'.bare = policy.bare) (segment : Segment) :
    q.verdict segment policy' = p.verdict segment policy := by
  calc q.verdict segment policy' = q.bare.verdict segment policy'.bare := rfl
    _ = p.bare.verdict segment policy.bare := by rw [hp, hpolicy]
    _ = p.verdict segment policy := rfl

end Pending

section Seal

variable {h : Headers} {frame : Frame} {p q : Pending}

/-- However the checksum is made, it is made in the two octets that it has. -/
theorem Headers.stampChecksum_twins (r : h.ReadsFrom frame) (b : Octets) (full full' : Bool)
    (hlen : b.length = frame.octets.length) :
    ∃ d d', h.stampChecksum b full = .ok d ∧ h.stampChecksum b full' = .ok d' ∧
      d'.length = d.length ∧
      ∀ j, j ≠ h.checksumOffset → j ≠ h.checksumOffset + 1 → d'[j]? = d[j]? := by
  -- Both are one patch of the same octets.
  have hpatched : ∀ full, ∃ d, h.stampChecksum b full = .ok d ∧ d.length = b.length ∧
      ∀ j, j ≠ h.checksumOffset → j ≠ h.checksumOffset + 1 → d[j]? = b[j]? := by
    intro full
    rcases stampChecksum_eq r b full hlen with ⟨sum, d, hc, hwritten⟩
    have hlength := Octets.length_applyPatches b [⟨h.checksumOffset, Octets.ofWord16 sum⟩]
    rw [hwritten] at hlength
    refine ⟨d, hc, hlength, fun j hj hj' => ?_⟩
    rw [Octets.getElem?_overwrite _ _ _ _ j (Octets.overwrite_of_applyPatches hwritten),
      Octets.length_ofWord16, if_neg (by omega)]
  rcases hpatched full with ⟨d, hc, hlength, hsame⟩
  rcases hpatched full' with ⟨d', hc', hlength', hsame'⟩
  exact ⟨d, d', hc, hc', hlength'.trans hlength.symm, fun j hj hj' =>
    (hsame' j hj hj').trans (hsame j hj hj').symm⟩

/-- What is stamped is the same, however it is stamped. -/
theorem Aggregate.sealOctets_twins (r : h.ReadsFrom frame) (hp : q.bare = p.bare) :
    ∃ d d', sealOctets h frame.octets p = .ok d ∧ sealOctets h frame.octets q = .ok d' ∧
      d'.length = d.length ∧
      ∀ j, j ≠ h.checksumOffset → j ≠ h.checksumOffset + 1 → d'[j]? = d[j]? := by
  have htrailer : q.trailer = p.trailer := show q.bare.trailer = p.bare.trailer by rw [hp]
  rcases Headers.sealOctets_stamps r p.trailer with ⟨_, trailed, hlength, _, hstamps⟩
  rw [hstamps p rfl, hstamps q htrailer]
  exact Headers.stampChecksum_twins r trailed _ _ hlength

/-- Sealing fails for both or for neither: it takes headers that can be decoded, and
    no more than that. -/
theorem Aggregate.ofStored_twins (stored : Frame) (hp : q.bare = p.bare) :
    (∃ cause, ofStored stored p = .error cause ∧ ofStored stored q = .error cause) ∨
      ∃ a b, ofStored stored p = .ok a ∧ ofStored stored q = .ok b ∧ a.Twins b := by
  rcases hdecode : Headers.decode stored with cause | h
  · refine Or.inl ⟨cause, ?_, ?_⟩
    all_goals simp only [ofStored, hdecode, bind, Except.bind]
  -- What sealing looks at is no part of the books.
  have hsegments : q.segments = p.segments := show q.bare.segments = p.bare.segments by rw [hp]
  have hlargest : q.largestPayload = p.largestPayload :=
    show q.bare.largestPayload = p.bare.largestPayload by rw [hp]
  refine Or.inr ?_
  by_cases halone : p.segments ≤ 1
  -- A segment that stayed alone is handed out as it came.
  case pos =>
    have hsame : q.sealedAs h stored stored.octets = p.sealedAs h stored stored.octets := by
      simp only [Pending.sealedAs, hsegments, hlargest, halone, decide_true, Bool.true_or]
    refine ⟨_, _, ofStored_alone stored p h hdecode halone,
      ofStored_alone stored q h hdecode (hsegments ▸ halone), ?_⟩
    rw [hsame]
    exact ⟨fun _ => rfl, rfl, rfl, fun _ _ _ => rfl, rfl⟩
  -- Otherwise the checksum is written twice over, and the rest is stamped alike.
  case neg =>
    rcases sealOctets_twins (Headers.readsFrom_of_decode stored h hdecode) hp with
      ⟨c, c', hc, hc', hlength, hoctets⟩
    refine ⟨_, _, ofStored_several stored p h c hdecode halone hc,
      ofStored_several stored q h c' hdecode (hsegments ▸ halone) hc', ?_⟩
    constructor
    case alone => exact fun hle => absurd hle halone
    case same => simp only [Pending.sealedAs, hsegments, hlargest]
    case length => exact hlength
    case octets => exact hoctets
    case consumer =>
      simp only [Aggregate.virtioHeader, Pending.sealedAs, hsegments, hlargest, halone, if_false]

end Seal

namespace Services

variable {s t : Services} {p q : Pending} {policy policy' : Policy}

namespace Twins

theorem refl (s : Services) : s.Twins s :=
  ⟨rfl, rfl⟩

/-- What is noticed, counted or written makes no difference. -/
theorem congr (h : s.Twins t) {s' t' : Services} (hs : s'.frames = s.frames ∧ s'.timers = s.timers)
    (ht : t'.frames = t.frames ∧ t'.timers = t.timers) : s'.Twins t' where
  frames := ht.1.trans (h.frames.trans hs.1.symm)
  timers := ht.2.trans (h.timers.trans hs.2.symm)

/-- What was noticed is nobody's concern. -/
theorem note (h : s.Twins t) (notice notice' : Notice) : (s.note notice).Twins (t.note notice') :=
  ⟨h.frames, h.timers⟩

theorem count (h : s.Twins t) (base base' : UInt64) (statistic : Statistic) (amount : Nat) :
    (s.count base statistic amount).Twins (t.count base' statistic amount) :=
  ⟨h.frames, h.timers⟩

/-- A size is written to the metadata and to the aggregate, and neither is storage or a
    timer. -/
theorem logSize (h : s.Twins t) (p q : Pending) (headers headers' : Headers) :
    (s.logSize p headers).2.Twins (t.logSize q headers').2 := by
  rw [logSize_eq, logSize_eq]
  exact ⟨h.frames, h.timers⟩

/-- Storage that is the same answers the same. -/
theorem storeFrame (h : s.Twins t) (frame : Frame) :
    Related Eq (s.storeFrame frame) (t.storeFrame frame) := by
  unfold Services.storeFrame
  rw [h.frames]
  exact .intro rfl ⟨rfl, h.timers⟩

theorem extendFrame (h : s.Twins t) (id : FrameId) (tail : Frame) (trim : Nat) :
    Related Eq (s.extendFrame id tail trim) (t.extendFrame id tail trim) := by
  unfold Services.extendFrame
  rw [h.frames]
  exact .intro rfl ⟨rfl, h.timers⟩

theorem takeFrame (h : s.Twins t) (id : FrameId) :
    Related Eq (s.takeFrame id) (t.takeFrame id) := by
  unfold Services.takeFrame
  rw [h.frames]
  exact .intro rfl ⟨rfl, h.timers⟩

theorem discardFrame (h : s.Twins t) (id : FrameId) :
    (s.discardFrame id).Twins (t.discardFrame id) :=
  ⟨congrArg (fun frames => frames.discard id) h.frames, h.timers⟩

/-- So do timers that are the same. -/
theorem armTimer (h : s.Twins t) (setup : TimerSetup) :
    Related Eq (s.armTimer setup) (t.armTimer setup) := by
  unfold Services.armTimer
  rw [h.timers]
  exact .intro rfl ⟨h.frames, rfl⟩

theorem restartTimer (h : s.Twins t) (handle : TimerId) :
    Related Eq (s.restartTimer handle) (t.restartTimer handle) := by
  unfold Services.restartTimer
  rw [h.timers]
  exact .intro rfl ⟨h.frames, rfl⟩

theorem releaseTimer (h : s.Twins t) (handle : TimerId) :
    (s.releaseTimer handle).Twins (t.releaseTimer handle) :=
  ⟨h.frames, congrArg (fun timers => timers.release handle) h.timers⟩

theorem acknowledgeTimer (h : s.Twins t) (handle : TimerId) :
    (s.acknowledgeTimer handle).Twins (t.acknowledgeTimer handle) :=
  ⟨h.frames, congrArg (fun timers => timers.acknowledge handle) h.timers⟩

end Twins

/-- What is opened is the same but for its books. -/
theorem openAggregate_twins (h : s.Twins t) (flow : UInt64) (segment : Segment) (timer : TimerId)
    (policy policy' : Policy) (extras extras' : Extras) :
    Related (fun a b => b.map Pending.bare = a.map Pending.bare)
      (s.openAggregate flow segment timer policy extras)
      (t.openAggregate flow segment timer policy' extras') := by
  have hstore := h.storeFrame segment.frame
  unfold openAggregate
  simp only [logSize_eq]
  -- Both store the same frame, so there is one result to look at and not two.
  generalize s.storeFrame segment.frame = x, t.storeFrame segment.frame = y at hstore ⊢
  rcases hstore with ⟨rfl, h₁⟩
  rename_i result _ _
  rcases result with cause | frame
  · exact .intro rfl (((h₁.note _ _).releaseTimer timer).count _ _ _ _)
  · refine .intro ?_ (h₁.congr ⟨rfl, rfl⟩ ⟨rfl, rfl⟩)
    rw [Option.map_some, Option.map_some, Pending.bare_sized, Pending.bare_sized]
    rfl

/-- What is appended to is the same but for its books, and is so afterwards. -/
theorem appendSegment_twins (h : s.Twins t) (hp : q.bare = p.bare) (segment : Segment) :
    Related (fun a b => b.map Pending.bare = a.map Pending.bare)
      (s.appendSegment p segment) (t.appendSegment q segment) := by
  have hframe : q.frame = p.frame := show q.bare.frame = p.bare.frame by rw [hp]
  have hextend := h.extendFrame p.frame segment.frame segment.headers.length
  unfold appendSegment
  simp only [logSize_eq, hframe]
  generalize s.extendFrame p.frame segment.frame segment.headers.length = x,
    t.extendFrame p.frame segment.frame segment.headers.length = y at hextend ⊢
  rcases hextend with ⟨rfl, h₁⟩
  rename_i result _ _
  rcases result with cause | length
  · exact .intro rfl h₁
  · refine .intro ?_ (h₁.congr ⟨rfl, rfl⟩ ⟨rfl, rfl⟩)
    -- Growing does not look at the books either.
    have hgrown : (q.grow segment.headers length).bare = (p.grow segment.headers length).bare :=
      congrArg (fun p => p.grow segment.headers length) hp
    simp only [Except.map, Pending.bare_sized, hgrown]

/-- What is given up has the same frame and the same timer for both. -/
theorem abandon_twins (h : s.Twins t) (hp : q.bare = p.bare) :
    (s.abandon p).Twins (t.abandon q) := by
  have hframe : q.frame = p.frame := show q.bare.frame = p.bare.frame by rw [hp]
  have htimer : q.timer = p.timer := show q.bare.timer = p.bare.timer by rw [hp]
  unfold abandon
  rw [hframe, htimer]
  exact ((h.releaseTimer p.timer).discardFrame p.frame).congr ⟨rfl, rfl⟩ ⟨rfl, rfl⟩

/-- What is closed is the same but for its checksum, or it is lost for both. -/
theorem closeAggregate_twins (h : s.Twins t) (hp : q.bare = p.bare) :
    Related (Option.Rel Aggregate.Twins) (s.closeAggregate p) (t.closeAggregate q) := by
  have hframe : q.frame = p.frame := show q.bare.frame = p.bare.frame by rw [hp]
  have htake := h.takeFrame p.frame
  unfold closeAggregate
  simp only [hframe]
  generalize s.takeFrame p.frame = x, t.takeFrame p.frame = y at htake ⊢
  rcases htake with ⟨rfl, h₁⟩
  rename_i taken _ _
  rcases taken with _ | stored
  · exact .intro .none (h₁.congr ⟨rfl, rfl⟩ ⟨rfl, rfl⟩)
  -- Both have taken out the same frame, which can be sealed for both or for neither.
  · rcases Aggregate.ofStored_twins stored hp with
      ⟨cause, hp', hq'⟩ | ⟨a, b, hp', hq', htwins⟩
    all_goals simp only [hp', hq']
    · exact .intro .none (h₁.congr ⟨rfl, rfl⟩ ⟨rfl, rfl⟩)
    · exact .intro (.some htwins) (h₁.congr ⟨rfl, rfl⟩ ⟨rfl, rfl⟩)

/-- A frame that only passes through storage comes out the same. -/
theorem relay_twins (h : s.Twins t) (frame : Frame) :
    Related Eq (s.relay frame) (t.relay frame) := by
  have hstore := h.storeFrame frame
  unfold relay
  generalize s.storeFrame frame = x, t.storeFrame frame = y at hstore ⊢
  rcases hstore with ⟨rfl, h₁⟩
  rename_i result s₁ t₁
  rcases result with cause | id
  · exact .intro rfl h₁
  -- The identifier that storing gave is the same, and so is what is found under it.
  · have htake := h₁.takeFrame id
    simp only
    generalize s₁.takeFrame id = x, t₁.takeFrame id = y at htake ⊢
    rcases htake with ⟨rfl, h₂⟩
    rename_i taken _ _
    rcases taken with _ | relayed
    · exact .intro rfl h₂
    · exact .intro rfl h₂

/-- A policy without its books asks for the same timer. -/
theorem renewTimer_twins (h : s.Twins t) (flow : UInt64) (timer : TimerId)
    (hpolicy : policy'.bare = policy.bare) :
    Related Eq (s.renewTimer flow timer policy) (t.renewTimer flow timer policy') := by
  have hsetup : policy'.timerSetup flow = policy.timerSetup flow :=
    show policy'.bare.timerSetup flow = policy.bare.timerSetup flow by rw [hpolicy]
  have hrestart := h.restartTimer timer
  unfold renewTimer
  rw [hsetup]
  generalize s.restartTimer timer = x, t.restartTimer timer = y at hrestart ⊢
  rcases hrestart with ⟨rfl, h₁⟩
  rename_i result _ _
  rcases result with cause | _
  -- A timer that cannot be started over is replaced by another for both.
  · exact ((h₁.note _ _).releaseTimer timer).armTimer (policy.timerSetup flow)
  · exact .intro rfl h₁

end Services

namespace Output.Twins

variable {a b : Output}

/-- Without an aggregate there is no checksum. -/
theorem silent (output : Output) (h : output.aggregate = none) : output.Twins output where
  disposition := rfl
  aggregate := by
    rw [h]
    exact .none
  segment := rfl

/-- What is said of a closing depends on whether there is an aggregate, and both have
    one or neither. -/
theorem ofClosing {x y : Option Aggregate} (h : Option.Rel Aggregate.Twins x y)
    (said : Disposition) : (Output.ofClosing x said).Twins (Output.ofClosing y said) where
  disposition := by cases h <;> rfl
  aggregate := h
  segment := rfl

/-- What is said besides is said of both. -/
theorem also (h : a.Twins b) (said : Disposition) : (a.also said).Twins (b.also said) where
  disposition := congrArg (fun d => d.union said) h.disposition
  aggregate := h.aggregate
  segment := h.segment

theorem withSegment (h : a.Twins b) (frame : Frame) :
    (a.withSegment frame).Twins (b.withSegment frame) where
  disposition := h.disposition
  aggregate := h.aggregate
  segment := rfl

end Output.Twins

/-- A call comes to the same but for the books. -/
structure Turn.Twins (a b : Turn) : Prop where
  output : a.output.Twins b.output
  flow : b.flow.map Pending.bare = a.flow.map Pending.bare
  services : a.services.Twins b.services

namespace Services

variable {s t : Services} {p q : Pending} {policy policy' : Policy}

/-- A flow without an aggregate takes the same timer and stores the same frame, if any. -/
theorem onIdle_twins (h : s.Twins t) (flow : UInt64) (segment : Segment)
    (hpolicy : policy'.bare = policy.bare) (extras extras' : Extras) :
    (s.onIdle flow segment policy extras).Twins (t.onIdle flow segment policy' extras') := by
  have hopens : segment.canOpen policy' = segment.canOpen policy :=
    show segment.canOpen policy'.bare = segment.canOpen policy.bare by rw [hpolicy]
  have hsetup : policy'.timerSetup flow = policy.timerSetup flow :=
    show policy'.bare.timerSetup flow = policy.bare.timerSetup flow by rw [hpolicy]
  unfold onIdle
  rw [hopens, hsetup]
  split
  case isFalse => exact ⟨.silent _ rfl, rfl, h.note _ _⟩
  have harm := h.armTimer (policy.timerSetup flow)
  generalize s.armTimer (policy.timerSetup flow) = x, t.armTimer (policy.timerSetup flow) = y
    at harm ⊢
  rcases harm with ⟨rfl, h₁⟩
  rename_i result s₁ t₁
  rcases result with cause | timer
  · exact ⟨.silent _ rfl, rfl, (h₁.note _ _).count _ _ _ _⟩
  have hopen := openAggregate_twins h₁ flow segment timer policy policy' extras extras'
  simp only
  generalize s₁.openAggregate flow segment timer policy extras = x,
    t₁.openAggregate flow segment timer policy' extras' = y at hopen ⊢
  rcases hopen with ⟨hopened, h₂⟩
  rename_i opened opened' _ _
  -- Nothing was opened for both, or something was. The mixed cases are contradictions.
  rcases opened with _ | p <;> rcases opened' with _ | q
  · exact ⟨.silent _ rfl, rfl, h₂⟩
  · cases hopened
  · cases hopened
  · exact ⟨.silent _ rfl, hopened, h₂⟩

theorem merge_twins (h : s.Twins t) (flow : UInt64) (hp : q.bare = p.bare) (segment : Segment) :
    (s.merge flow p segment).Twins (t.merge flow q segment) := by
  have happend := appendSegment_twins h hp segment
  unfold merge
  generalize s.appendSegment p segment = x, t.appendSegment q segment = y at happend ⊢
  rcases happend with ⟨happended, h₁⟩
  rename_i appended appended' _ _
  rcases appended with cause | p' <;> rcases appended' with cause' | q'
  · exact ⟨.silent _ rfl, rfl, abandon_twins (h₁.note _ _) hp⟩
  · cases happended
  · cases happended
  · exact ⟨.silent _ rfl, congrArg some (Except.ok.inj happended), h₁⟩

/-- The checksum of what is closed is the one thing in which twins may differ. -/
theorem mergeThenClose_twins (h : s.Twins t) (flow : UInt64) (hp : q.bare = p.bare)
    (segment : Segment) :
    (s.mergeThenClose flow p segment).Twins (t.mergeThenClose flow q segment) := by
  have htimer : q.timer = p.timer := show q.bare.timer = p.bare.timer by rw [hp]
  have happend := appendSegment_twins (h.releaseTimer p.timer) hp segment
  unfold mergeThenClose
  rw [htimer]
  generalize (s.releaseTimer p.timer).appendSegment p segment = x,
    (t.releaseTimer p.timer).appendSegment q segment = y at happend ⊢
  rcases happend with ⟨happended, h₁⟩
  rename_i appended appended' s₁ t₁
  -- Appending failed for both or for neither.
  rcases appended with cause | p' <;> rcases appended' with cause' | q'
  · exact ⟨.silent _ rfl, rfl, abandon_twins (h₁.note _ _) hp⟩
  · cases happended
  · cases happended
  · have hclose := closeAggregate_twins h₁ (Except.ok.inj happended)
    simp only
    generalize s₁.closeAggregate p' = x, t₁.closeAggregate q' = y at hclose ⊢
    rcases hclose with ⟨hclosed, h₂⟩
    exact ⟨.ofClosing hclosed _, rfl, h₂⟩

/-- A segment that is handed out by itself is so for both. -/
theorem closeThenPass_twins (h : s.Twins t) (flow : UInt64) (hp : q.bare = p.bare)
    (segment : Segment) (policy policy' : Policy) :
    (s.closeThenPass flow p segment policy).Twins (t.closeThenPass flow q segment policy') := by
  have htimer : q.timer = p.timer := show q.bare.timer = p.bare.timer by rw [hp]
  have hclose := closeAggregate_twins (h.releaseTimer p.timer) hp
  unfold closeThenPass
  rw [htimer]
  generalize (s.releaseTimer p.timer).closeAggregate p = x,
    (t.releaseTimer p.timer).closeAggregate q = y at hclose ⊢
  rcases hclose with ⟨hclosed, h₁⟩
  rename_i _ _ s₁ t₁
  -- Closing has left the same storage, through which the segment passes.
  have hrelay := relay_twins h₁ segment.frame
  simp only
  generalize s₁.relay segment.frame = x, t₁.relay segment.frame = y at hrelay ⊢
  rcases hrelay with ⟨rfl, h₂⟩
  rename_i result _ _
  rcases result with cause | relayed
  · exact ⟨(Output.Twins.ofClosing hclosed _).also _, rfl, (h₂.note _ _).count _ _ _ _⟩
  · exact ⟨(Output.Twins.ofClosing hclosed _).withSegment _, rfl, h₂⟩

/-- Closing and opening go step by step, each from where the step before it left both. -/
theorem closeThenOpen_twins (h : s.Twins t) (flow : UInt64) (hp : q.bare = p.bare)
    (segment : Segment) (hpolicy : policy'.bare = policy.bare) (extras extras' : Extras) :
    (s.closeThenOpen flow p segment policy extras).Twins
      (t.closeThenOpen flow q segment policy' extras') := by
  have htimer : q.timer = p.timer := show q.bare.timer = p.bare.timer by rw [hp]
  have hclose := closeAggregate_twins h hp
  unfold closeThenOpen
  rw [htimer]
  generalize s.closeAggregate p = x, t.closeAggregate q = y at hclose ⊢
  rcases hclose with ⟨hclosed, h₁⟩
  rename_i _ _ s₁ t₁
  have hrenew := renewTimer_twins h₁ flow p.timer hpolicy
  simp only
  generalize s₁.renewTimer flow p.timer policy = x, t₁.renewTimer flow p.timer policy' = y
    at hrenew ⊢
  rcases hrenew with ⟨rfl, h₂⟩
  rename_i result s₂ t₂
  rcases result with cause | timer
  · exact ⟨((Output.Twins.ofClosing hclosed _).also _).withSegment _, rfl,
      (h₂.note _ _).count _ _ _ _⟩
  -- The timer that was renewed is the same, so what is opened differs in its books alone.
  have hopen := openAggregate_twins h₂ flow segment timer policy policy' extras extras'
  simp only
  generalize s₂.openAggregate flow segment timer policy extras = x,
    t₂.openAggregate flow segment timer policy' extras' = y at hopen ⊢
  rcases hopen with ⟨hopened, h₃⟩
  rename_i opened opened' _ _
  rcases opened with _ | next <;> rcases opened' with _ | next'
  · exact ⟨(Output.Twins.ofClosing hclosed _).also _, rfl, h₃⟩
  · cases hopened
  · cases hopened
  · exact ⟨(Output.Twins.ofClosing hclosed _).also _, hopened, h₃⟩

theorem closeAround_twins (h : s.Twins t) (flow : UInt64) (hp : q.bare = p.bare)
    (segment : Segment) (hpolicy : policy'.bare = policy.bare) (extras extras' : Extras) :
    (s.closeAround flow p segment policy extras).Twins
      (t.closeAround flow q segment policy' extras') := by
  have hopens : segment.canOpen policy' = segment.canOpen policy :=
    show segment.canOpen policy'.bare = segment.canOpen policy.bare by rw [hpolicy]
  unfold closeAround
  rw [hopens]
  split
  · exact closeThenOpen_twins h flow hp segment hpolicy extras extras'
  · exact closeThenPass_twins h flow hp segment policy policy'

/-- The verdict is the same, so it is the same case for both. -/
theorem onPending_twins (h : s.Twins t) (flow : UInt64) (hp : q.bare = p.bare)
    (segment : Segment) (hpolicy : policy'.bare = policy.bare) (extras extras' : Extras) :
    (s.onPending flow p segment policy extras).Twins
      (t.onPending flow q segment policy' extras') := by
  unfold onPending
  rw [Pending.verdict_congr hp hpolicy segment]
  rcases p.verdict segment policy with _ | _ | _ | _ | size
  · exact merge_twins h flow hp segment
  · exact mergeThenClose_twins h flow hp segment
  · exact closeAround_twins ((h.note _ _).count _ _ _ _) flow hp segment hpolicy extras extras'
  · exact closeAround_twins (h.note _ _) flow hp segment hpolicy extras extras'
  · exact closeAround_twins (h.note _ _) flow hp segment hpolicy extras extras'

end Services

end ReceiveOffload
