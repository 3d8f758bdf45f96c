import ReceiveOffload.Proofs.Counters
import ReceiveOffload.Proofs.Courses

/-!
# A Flow by Itself

Where nothing is refused, what becomes of a flow is a matter of what arrives for
it and of nothing else. It does not depend on which timer its aggregate has, under
which identifier its frame is stored, what else is stored, or what the counters
and the metadata show. So it can be said without an engine: `Solo` is an aggregate
with its frame but without the names of both, and `Conduct` is what a call makes of
it, what it hands out, and what it adds to the books.

An engine conducts itself so whenever a call says that it got what it needed. The
frame of the aggregate has to be where it was stored, the next identifier has to be
free, and the services may be in any state besides.

## Main definitions

* `Pending.nameless`: An aggregate without the names of its timer and its frame.
* `Solo`: An aggregate and its frame, without names.
* `Conduct`: What a call on a flow comes to.
* `Solo.onIdle`, `Solo.onPending`, `Solo.flushed`: What it comes to by itself.
* `Output.Granted`: A call says that nothing was refused.
* `Turn.Follows`: An engine comes to the same.

## Theorems

* `Services.onIdle_follows`, `Services.onPending_follows`: A segment that is
  offered.
* `Services.closeAggregate_solo`: Closing an aggregate.
-/

namespace ReceiveOffload

/-- The aggregate without the names of its timer and its frame. -/
def Pending.nameless (p : Pending) : Pending :=
  { p with timer := ⟨0, 0, 0⟩, frame := ⟨0⟩ }

/-- Whether names are left out before a size was logged or after it is the same. -/
theorem Pending.nameless_sized (p : Pending) : p.sized.nameless = p.nameless.sized := by
  unfold sized nameless
  split <;> rfl

/-- An aggregate and its frame, without names. -/
structure Solo where
  pending : Pending
  stored : Frame
  deriving DecidableEq, Repr

/-- What a call on a flow comes to: what it hands out, the aggregate that it leaves, by
    how much it raises the counters, and what it writes to the metadata. -/
structure Conduct where
  output : Output
  left : Option Solo
  raises : UInt64 → Nat
  writes : Metadata → Metadata

namespace Solo

/-- The aggregate that a segment opens. -/
def opened (x : Offer) : Solo :=
  ⟨(x.opening ⟨0, 0, 0⟩ ⟨0⟩).sized, x.segment.frame⟩

/-- The aggregate after a segment was appended. -/
def extended (solo : Solo) (segment : Segment) : Solo :=
  let stored := solo.stored.append (segment.frame.octets.drop segment.headers.length)
  ⟨(solo.pending.grow segment.headers stored.length).sized, stored⟩

/-- The aggregate that is handed out on closing. -/
def sealed? (solo : Solo) : Option Aggregate :=
  (Aggregate.ofStored solo.stored solo.pending).toOption

/-- What closing raises the counters by. -/
def closing (solo : Solo) : UInt64 → Nat :=
  if solo.sealed?.isSome then solo.pending.takings
  else Statistic.discardedSegments.entry solo.pending.statistics solo.pending.segments

/-- A segment that finds no aggregate opens one or is handed back. -/
def onIdle (x : Offer) : Conduct :=
  if x.segment.canOpen x.policy then {
    output := { disposition := { newAggregationStarted := true } }
    left := some (opened x)
    raises := Statistic.segments.entry x.policy.statistics 1
    writes := (x.opening ⟨0, 0, 0⟩ ⟨0⟩).writeSize x.segment.headers
  } else {
    output := .handBack { flushNow := true } x.segment.frame
    left := none
    raises := 0
    writes := id
  }

/-- A segment that does not continue the aggregate closes it, and then opens the next
    one or is handed out behind it. -/
def closeAround (solo : Solo) (x : Offer) : Conduct :=
  let closed := Output.ofClosing solo.sealed? { flushNow := true }
  {
    output :=
      if x.segment.canOpen x.policy then closed.also { newAggregationStarted := true }
      else closed.withSegment x.segment.frame
    left := (onIdle x).left
    raises := solo.closing + (onIdle x).raises
    writes := fun m => (onIdle x).writes (solo.pending.writeCount m)
  }

/-- A segment that finds an aggregate. -/
def onPending (solo : Solo) (x : Offer) : Conduct :=
  let counted := Statistic.segments.entry solo.pending.statistics 1
  let grown := solo.extended x.segment
  match solo.pending.verdict x.segment x.policy with
  | .merge => {
      output := { disposition := { aggregated := true } }
      left := some grown
      raises := counted
      writes := solo.pending.writeSize x.segment.headers
    }
  | .mergeThenClose => {
      output := .ofClosing grown.sealed? { flushNow := true }
      left := none
      raises := counted + grown.closing
      writes := fun m => grown.pending.writeCount (solo.pending.writeSize x.segment.headers m)
    }
  | .outOfSequence =>
    let conduct := solo.closeAround x
    { conduct with
      raises := Statistic.unexpectedSeq.entry solo.pending.statistics 1 + conduct.raises }
  | .incompatible | .oversized _ => solo.closeAround x

/-- A request to close the aggregate. -/
def flushed (solo : Solo) : Conduct where
  output := .ofClosing solo.sealed? { flushAggregationDone := true }
  left := none
  raises :=
    (if solo.pending.extendedStatistics
      then Statistic.flushRequests.entry solo.pending.statistics 1 else 0) + solo.closing
  writes := solo.pending.writeCount

end Solo

/-- Logging a size writes the same at an address whatever else the metadata show. -/
theorem Pending.pointwise_writeSize (p : Pending) (h : Headers) :
    Metadata.Pointwise (p.writeSize h) := by
  unfold Pending.writeSize
  split
  · exact Metadata.pointwise_write _ _ (by rw [Octets.length_ofWord16]; decide)
  · exact .id

theorem Pending.pointwise_writeCount (p : Pending) : Metadata.Pointwise p.writeCount :=
  Metadata.pointwise_write _ _ (by rw [Octets.length_ofWord32]; decide)

namespace Solo

/-- So does all that a call writes. -/
theorem pointwise_onIdle (x : Offer) : Metadata.Pointwise (onIdle x).writes := by
  unfold onIdle
  split
  · exact Pending.pointwise_writeSize _ _
  · exact .id

theorem pointwise_closeAround (solo : Solo) (x : Offer) :
    Metadata.Pointwise (solo.closeAround x).writes :=
  (pointwise_onIdle x).comp solo.pending.pointwise_writeCount

theorem pointwise_onPending (solo : Solo) (x : Offer) :
    Metadata.Pointwise (solo.onPending x).writes := by
  unfold onPending
  rcases solo.pending.verdict x.segment x.policy with _ | _ | _ | _ | size
  · exact Pending.pointwise_writeSize _ _
  · exact (Pending.pointwise_writeCount _).comp (Pending.pointwise_writeSize _ _)
  all_goals exact solo.pointwise_closeAround x

end Solo

/-- A call says that there was a timer where one was needed, and that nothing was
    lost. It says otherwise only if there was no timer or storage refused something,
    since an aggregate that is still stored can always be sealed. -/
structure Output.Granted (output : Output) : Prop where
  timed : output.disposition.timerUnavailable = false
  kept : output.disposition.reportsLoss = false

instance (output : Output) : Decidable output.Granted :=
  decidable_of_iff (output.disposition.timerUnavailable = false ∧
    output.disposition.reportsLoss = false) ⟨fun h => ⟨h.1, h.2⟩, fun h => ⟨h.timed, h.kept⟩⟩

/-- The aggregate that is pending with the frame that is stored for it. -/
def Services.solo? (s : Services) (pending : Option Pending) : Option Solo :=
  pending.bind fun p => (s.stored? p.frame).map fun stored => ⟨p.nameless, stored⟩

/-- A call on an engine comes to what the flow comes to by itself. -/
structure Turn.Follows (turn : Turn) (s : Services) (conduct : Conduct) : Prop where
  output : turn.output = conduct.output
  left : turn.services.solo? turn.flow = conduct.left
  raises : s.counters.Raised turn.services.counters conduct.raises
  metadata : turn.services.metadata = conduct.writes s.metadata

namespace Services

variable {s : Services} {p : Pending} {stored : Frame}

/-- While its frame is stored, an aggregate can be seen without its names. -/
theorem solo?_some (h : s.stored? p.frame = some stored) :
    s.solo? (some p) = some ⟨p.nameless, stored⟩ := by
  rw [solo?, Option.bind_some, h, Option.map_some]

/-- Without room in storage nothing is opened. Otherwise the aggregate is that of the
    segment, and its frame is stored. -/
theorem openAggregate_solo (s : Services) (flow : UInt64) (x : Offer) (timer : TimerId) :
    (s.openAggregate flow x.segment timer x.policy x.extras).1 = none ∨
    ∃ p, (s.openAggregate flow x.segment timer x.policy x.extras).1 = some p ∧
      (s.openAggregate flow x.segment timer x.policy x.extras).2.solo? (some p)
        = some (Solo.opened x) ∧
      s.counters.Raised (s.openAggregate flow x.segment timer x.policy x.extras).2.counters
        (Statistic.segments.entry x.policy.statistics 1) ∧
      (s.openAggregate flow x.segment timer x.policy x.extras).2.metadata
        = (x.opening ⟨0, 0, 0⟩ ⟨0⟩).writeSize x.segment.headers s.metadata := by
  have hraised := s.openAggregate_raised flow x.segment timer x.policy x.extras
  rcases s.storeFrame_cases x.segment.frame with ⟨outages, _, ⟨cause, hstore⟩ | hstore⟩
  -- Storing the frame is the only step that can be refused.
  all_goals simp only [openAggregate, hstore, logSize_eq] at hraised ⊢
  · exact Or.inl trivial
  · refine Or.inr ⟨_, rfl, ?_, hraised, rfl⟩
    -- The names were given by the caller and by storage, and both are left out.
    refine (solo?_some ?_).trans (congrArg (fun p => some (⟨p, x.segment.frame⟩ : Solo))
      (x.opening timer s.frames.storage.next).nameless_sized)
    rw [Pending.frame_sized]
    exact (s.frames.storage.get?_put x.segment.frame _).trans (if_pos rfl)

/-- Without room in storage nothing is appended. Otherwise the aggregate and its frame
    have grown by the segment. -/
theorem appendSegment_solo (s : Services) (p : Pending) (segment : Segment) (stored : Frame)
    (hstored : s.stored? p.frame = some stored) :
    (∃ cause, (s.appendSegment p segment).1 = .error cause) ∨
    ∃ p' stored', (s.appendSegment p segment).1 = .ok p' ∧
      (s.appendSegment p segment).2.stored? p'.frame = some stored' ∧
      (⟨p.nameless, stored⟩ : Solo).extended segment = ⟨p'.nameless, stored'⟩ ∧
      s.counters.Raised (s.appendSegment p segment).2.counters
        (Statistic.segments.entry p.statistics 1) ∧
      (s.appendSegment p segment).2.metadata = p.writeSize segment.headers s.metadata ∧
      (s.appendSegment p segment).2.frames.outages.take = s.frames.outages.take := by
  have hraised := s.appendSegment_raised p segment
  rcases s.extendFrame_cases p.frame segment.frame segment.headers.length with
    ⟨outages, htake, ⟨cause, hextend⟩ | ⟨frame, hframe, hextend⟩⟩
  all_goals simp only [appendSegment, hextend, logSize_eq] at hraised ⊢
  · exact Or.inl ⟨cause, rfl⟩
  -- What grows is the frame that is stored for the aggregate.
  · rw [hstored, Option.some.injEq] at hframe
    subst hframe
    refine Or.inr ⟨_, stored.append (segment.frame.octets.drop segment.headers.length), rfl, ?_, ?_,
      hraised, rfl, htake⟩
    · rw [Pending.frame_sized]
      exact (s.frames.storage.get?_grow p.frame p.frame stored _).trans (if_pos rfl)
    · rw [Pending.nameless_sized]
      rfl

/-- Closing hands out what was stored, and that is settled before it is known whether
    it can be sealed. -/
theorem closeAggregate_solo (s : Services) (p : Pending) (stored : Frame)
    (spares : s.SparesTakes) (hstored : s.stored? p.frame = some stored) :
    (s.closeAggregate p).1 = (⟨p.nameless, stored⟩ : Solo).sealed? ∧
      s.counters.Raised (s.closeAggregate p).2.counters (⟨p.nameless, stored⟩ : Solo).closing ∧
      (s.closeAggregate p).2.metadata = p.writeCount s.metadata ∧
      (s.closeAggregate p).2.frames = (s.discardFrame p.frame).frames := by
  have hsealed : (s.closeAggregate p).1 = (⟨p.nameless, stored⟩ : Solo).sealed? := by
    simp only [closeAggregate, takeFrame_eq s p.frame spares, hstored]
    show _ = (Aggregate.ofStored stored p).toOption
    rcases Aggregate.ofStored stored p with cause | aggregate <;> rfl
  -- The counters depend on whether the aggregate was handed out, the metadata do not.
  have hraised := s.closeAggregate_raised p
  rw [hsealed] at hraised
  refine ⟨hsealed, hraised, ?_⟩
  simp only [closeAggregate, takeFrame_eq s p.frame spares, hstored]
  split <;> exact ⟨rfl, rfl⟩

/-- A flow without an aggregate conducts itself as by itself, if it gets a timer and
    room in storage. -/
theorem onIdle_follows (s : Services) (flow : UInt64) (x : Offer)
    (granted : (s.onIdle flow x.segment x.policy x.extras).output.Granted) :
    (s.onIdle flow x.segment x.policy x.extras).Follows s (Solo.onIdle x) := by
  unfold onIdle at granted ⊢
  unfold Solo.onIdle
  by_cases hopens : x.segment.canOpen x.policy = true
  case neg =>
    rw [if_neg hopens, if_neg hopens]
    exact ⟨rfl, rfl, .of_eq rfl, rfl⟩
  rw [if_pos hopens] at granted
  rw [if_pos hopens, if_pos hopens]
  rcases harm : s.armTimer (x.policy.timerSetup flow) with ⟨cause | timer, s₁⟩
  all_goals
    rw [harm] at granted
    have hcounters : s₁.counters = s.counters := congrArg (fun r => r.2.counters) harm.symm
    have hmetadata : s₁.metadata = s.metadata := congrArg (fun r => r.2.metadata) harm.symm
  -- Where something was refused, the output says so, against what it is known to say.
  · cases granted.timed
  -- Taking a timer leaves counters and metadata alone.
  · have hopen := s₁.openAggregate_solo flow x timer
    simp only at granted ⊢
    rcases hopened : s₁.openAggregate flow x.segment timer x.policy x.extras with ⟨opened, s₂⟩
    rw [hopened] at hopen granted
    rcases hopen with rfl | ⟨p, rfl, hleft, hraised, hwritten⟩
    · cases granted.kept
    · exact ⟨rfl, hleft, hcounters ▸ hraised, hmetadata ▸ hwritten⟩

/-- A segment that is merged needs room for its payload, and nothing else. -/
theorem merge_follows (s : Services) (flow : UInt64) (p : Pending) (x : Offer) (stored : Frame)
    (hstored : s.stored? p.frame = some stored)
    (verdict : p.verdict x.segment x.policy = .merge)
    (granted : (s.merge flow p x.segment).output.Granted) :
    (s.merge flow p x.segment).Follows s ((⟨p.nameless, stored⟩ : Solo).onPending x) := by
  have hverdict : p.nameless.verdict x.segment x.policy = .merge := verdict
  have happend := s.appendSegment_solo p x.segment stored hstored
  unfold merge at granted ⊢
  simp only [Solo.onPending, hverdict]
  rcases hresult : s.appendSegment p x.segment with ⟨appended, s₁⟩
  rw [hresult] at happend granted
  rcases happend with ⟨cause, rfl⟩ | ⟨p', stored', rfl, hgrown, heq, hraised, hwritten, _⟩
  · cases granted.kept
  · exact ⟨rfl, (solo?_some hgrown).trans (congrArg some heq.symm), hraised, hwritten⟩

/-- The last segment is merged as any other. Then the aggregate is closed, which needs
    nothing to be granted. -/
theorem mergeThenClose_follows (s : Services) (flow : UInt64) (p : Pending) (x : Offer)
    (stored : Frame) (spares : s.SparesTakes) (hstored : s.stored? p.frame = some stored)
    (verdict : p.verdict x.segment x.policy = .mergeThenClose)
    (granted : (s.mergeThenClose flow p x.segment).output.Granted) :
    (s.mergeThenClose flow p x.segment).Follows s ((⟨p.nameless, stored⟩ : Solo).onPending x) := by
  have hverdict : p.nameless.verdict x.segment x.policy = .mergeThenClose := verdict
  have happend := (s.releaseTimer p.timer).appendSegment_solo p x.segment stored hstored
  unfold mergeThenClose at granted ⊢
  simp only [Solo.onPending, hverdict]
  rcases hresult : (s.releaseTimer p.timer).appendSegment p x.segment with ⟨appended, s₁⟩
  rw [hresult] at happend granted
  rcases happend with ⟨cause, rfl⟩ | ⟨p', stored', rfl, hgrown, heq, hraised, hwritten, htake⟩
  · cases granted.kept
  -- Closing works on what appending has left, with the counters raised twice.
  · rcases s₁.closeAggregate_solo p' stored' (htake.trans spares) hgrown with
      ⟨hsealed, hclosed, hcounted, _⟩
    rw [heq]
    refine ⟨congrArg (fun aggregate => Output.ofClosing aggregate _) hsealed, rfl,
      hraised.trans hclosed, ?_⟩
    exact hcounted.trans (congrArg p'.writeCount hwritten)

/-- A segment that is handed out behind its aggregate goes through storage and comes out
    as it went in. -/
theorem closeThenPass_follows (s : Services) (flow : UInt64) (p : Pending) (x : Offer)
    (stored : Frame) (ready : s.Ready) (fresh : s.Fresh)
    (hstored : s.stored? p.frame = some stored) (hopens : x.segment.canOpen x.policy = false)
    (granted : (s.closeThenPass flow p x.segment x.policy).output.Granted) :
    (s.closeThenPass flow p x.segment x.policy).Follows s
      ((⟨p.nameless, stored⟩ : Solo).closeAround x) := by
  rcases (s.releaseTimer p.timer).closeAggregate_solo p stored ready.spares hstored with
    ⟨hsealed, hclosed, hcounted, hframes⟩
  unfold closeThenPass at granted ⊢
  rcases hclose : (s.releaseTimer p.timer).closeAggregate p with ⟨aggregate, s₁⟩
  rw [hclose] at hsealed hclosed hcounted hframes granted
  -- The segment is relayed through the storage that closing left.
  have hrelay := (s₁.relay_spec x.segment.frame ((ready.discardFrame p.frame).of_frames_eq hframes)
    ((fresh.discardFrame p.frame).of_frames_eq hframes)).2.2
  have hcounters := s₁.counters_relay x.segment.frame
  have hmetadata := s₁.metadata_relay x.segment.frame
  simp only at hsealed hclosed hcounted granted ⊢
  rcases hrelayed : s₁.relay x.segment.frame with ⟨cause | relayed, s₂⟩
  all_goals rw [hrelayed] at hrelay hcounters hmetadata granted
  · have hlost := granted.kept
    simp [Output.also, Disposition.union, Disposition.reportsLoss] at hlost
  · rcases hrelay with ⟨cause, herror⟩ | hsame
    · cases herror
    cases hsame
    constructor
    case output => simp only [Solo.closeAround, hopens, hsealed, Bool.false_eq_true, if_false]
    case left =>
      simp only [Solo.closeAround, Solo.onIdle, hopens, Bool.false_eq_true, if_false]
      rfl
    case raises =>
      simp only [Solo.closeAround, Solo.onIdle, hopens, Bool.false_eq_true, if_false]
      exact hclosed.trans (.of_eq hcounters)
    case metadata =>
      simp only [Solo.closeAround, Solo.onIdle, hopens, Bool.false_eq_true, if_false]
      exact hmetadata.trans hcounted

/-- The aggregate that comes next is opened with any timer that can be had. -/
theorem closeThenOpen_follows (s : Services) (flow : UInt64) (p : Pending) (x : Offer)
    (stored : Frame) (spares : s.SparesTakes) (hstored : s.stored? p.frame = some stored)
    (hopens : x.segment.canOpen x.policy = true)
    (granted : (s.closeThenOpen flow p x.segment x.policy x.extras).output.Granted) :
    (s.closeThenOpen flow p x.segment x.policy x.extras).Follows s
      ((⟨p.nameless, stored⟩ : Solo).closeAround x) := by
  rcases s.closeAggregate_solo p stored spares hstored with ⟨hsealed, hclosed, hcounted, _⟩
  unfold closeThenOpen at granted ⊢
  rcases hclose : s.closeAggregate p with ⟨aggregate, s₁⟩
  rw [hclose] at hsealed hclosed hcounted granted
  have hcounters := s₁.counters_renewTimer flow p.timer x.policy
  have hmetadata := s₁.metadata_renewTimer flow p.timer x.policy
  simp only at hsealed hclosed hcounted granted ⊢
  rcases hrenewed : s₁.renewTimer flow p.timer x.policy with ⟨cause | timer, s₂⟩
  all_goals rw [hrenewed] at hcounters hmetadata granted
  -- A timer that could not be had is reported, and so is a frame that was not stored.
  · have htimed := granted.timed
    simp [Output.also, Output.withSegment, Disposition.union] at htimed
  · have hopen := s₂.openAggregate_solo flow x timer
    simp only at hcounters hmetadata granted ⊢
    rcases hopened : s₂.openAggregate flow x.segment timer x.policy x.extras with ⟨opened, s₃⟩
    rw [hopened] at hopen granted
    rcases hopen with rfl | ⟨q, rfl, hleft, hraised, hwritten⟩
    · have hlost := granted.kept
      simp [Output.also, Disposition.union, Disposition.reportsLoss] at hlost
    -- The counters go up for closing first, and for what is opened after that.
    · constructor
      case output => simp only [Solo.closeAround, hopens, hsealed, if_true]
      case left =>
        simp only [Solo.closeAround, Solo.onIdle, hopens, if_true]
        exact hleft
      case raises =>
        simp only [Solo.closeAround, Solo.onIdle, hopens, if_true]
        exact hclosed.trans (hcounters ▸ hraised)
      case metadata =>
        simp only [Solo.closeAround, Solo.onIdle, hopens, if_true]
        rw [hmetadata, hcounted] at hwritten
        exact hwritten

theorem closeAround_follows (s : Services) (flow : UInt64) (p : Pending) (x : Offer)
    (stored : Frame) (ready : s.Ready) (fresh : s.Fresh)
    (hstored : s.stored? p.frame = some stored)
    (granted : (s.closeAround flow p x.segment x.policy x.extras).output.Granted) :
    (s.closeAround flow p x.segment x.policy x.extras).Follows s
      ((⟨p.nameless, stored⟩ : Solo).closeAround x) := by
  unfold closeAround at granted ⊢
  by_cases hopens : x.segment.canOpen x.policy = true
  · rw [if_pos hopens] at granted ⊢
    exact s.closeThenOpen_follows flow p x stored ready.spares hstored hopens granted
  · rw [if_neg hopens] at granted ⊢
    exact s.closeThenPass_follows flow p x stored ready fresh hstored
      (Bool.eq_false_iff.mpr hopens) granted

/-- A flow with an aggregate conducts itself as by itself, if nothing is refused. -/
theorem onPending_follows (s : Services) (flow : UInt64) (p : Pending) (x : Offer)
    (stored : Frame) (ready : s.Ready) (fresh : s.Fresh)
    (hstored : s.stored? p.frame = some stored)
    (granted : (s.onPending flow p x.segment x.policy x.extras).output.Granted) :
    (s.onPending flow p x.segment x.policy x.extras).Follows s
      ((⟨p.nameless, stored⟩ : Solo).onPending x) := by
  -- A verdict that closes the aggregate is noted before, which storage does not notice.
  have haround : ∀ s' : Services, s'.frames = s.frames →
      (s'.closeAround flow p x.segment x.policy x.extras).output.Granted →
      (s'.closeAround flow p x.segment x.policy x.extras).Follows s'
        ((⟨p.nameless, stored⟩ : Solo).closeAround x) :=
    fun s' hframes => s'.closeAround_follows flow p x stored (ready.of_frames_eq hframes)
      (fresh.of_frames_eq hframes) ((congrFun (stored?_congr hframes) p.frame).trans hstored)
  rcases hverdict : p.verdict x.segment x.policy with _ | _ | _ | _ | size
  · have hturn : s.onPending flow p x.segment x.policy x.extras = s.merge flow p x.segment := by
      simp only [onPending, hverdict]
    rw [hturn] at granted ⊢
    exact s.merge_follows flow p x stored hstored hverdict granted
  · have hturn : s.onPending flow p x.segment x.policy x.extras
        = s.mergeThenClose flow p x.segment := by
      simp only [onPending, hverdict]
    rw [hturn] at granted ⊢
    exact s.mergeThenClose_follows flow p x stored ready.spares hstored hverdict granted
  all_goals
    have hnameless : p.nameless.verdict x.segment x.policy = _ := hverdict
    unfold onPending at granted ⊢
    simp only [hverdict] at granted
    simp only [hverdict, Solo.onPending, hnameless]
    have hfollows := haround _ (by rfl) granted
  · exact ⟨hfollows.output, hfollows.left,
      (s.count_raised p.statistics .unexpectedSeq 1).trans hfollows.raises, hfollows.metadata⟩
  · exact ⟨hfollows.output, hfollows.left, hfollows.raises, hfollows.metadata⟩
  · exact ⟨hfollows.output, hfollows.left, hfollows.raises, hfollows.metadata⟩

end Services

end ReceiveOffload
