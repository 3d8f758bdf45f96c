import ReceiveOffload.Proofs.Calls
import ReceiveOffload.Proofs.Ledger
import ReceiveOffload.Proofs.Storage

/-!
# What a Turn Leaves in Storage

A call on a flow goes through the services in one of a dozen ways. This is the
one place where they are told apart. `Turn.Accounts` says of a call everything
that the books of the flow and the frames of the other flows need: what its
outcome is, that the aggregate it leaves is stored and has the segments that the
outcome says, and that no other frame was touched. There is one such lemma for
each step that a call is made of, and none of them looks into another.

A step may store one frame, and it must not be stored over another. That is
`Ready` and its companion, the hypothesis that the next identifier is free. The
hypothesis is used up by the frame that is stored, and a call stores one frame
at most.

## Main definitions

* `Services.Holds`: The segments of a pending aggregate, stored and merged.
* `Services.Ready`: Storage is sound and gives out what it holds.
* `Turn.Accounts`: What a call comes to and leaves.

## Theorems

* `Services.closeAggregate_spec`: Closing takes the frame out and gives an
  aggregate of its segments.
* `Services.onIdle_accounts`, `Services.onPending_accounts`: A segment that is
  offered.
-/

namespace ReceiveOffload

namespace Services

/-- The segments that wait in a pending aggregate, with their frame in
    storage. -/
def Holds (s : Services) : Option Pending → List Segment → Prop
  | none, members => members = []
  | some p, members => ∃ first rest stored, members = first :: rest ∧
      s.stored? p.frame = some stored ∧ Merged first p stored rest

/-- Storage is sound and gives out what it holds. -/
structure Ready (s : Services) : Prop where
  spares : s.SparesTakes
  sound : s.frames.storage.Sound

/-- The next identifier is free. -/
def Fresh (s : Services) : Prop :=
  s.stored? s.frames.storage.next = none

variable {s : Services} {p : Pending} {members : List Segment} {segment : Segment}

/-- Segments that are held came from frames. -/
theorem Holds.genuine {pending : Option Pending} (h : s.Holds pending members) :
    ∀ t ∈ members, t.Genuine := by
  rcases pending with _ | p
  · rw [show members = [] from h]
    exact fun _ hnil => absurd hnil List.not_mem_nil
  · rcases h with ⟨first, rest, stored, rfl, _, m⟩
    exact fun t ht => (m.alike t ht).genuine

theorem Holds.ne_nil (h : s.Holds (some p) members) : members ≠ [] := by
  rcases h with ⟨first, rest, _, rfl, _, _⟩
  exact List.cons_ne_nil first rest

/-- Something is pending if and only if there are segments that wait. -/
theorem Holds.isSome_iff {pending : Option Pending} (h : s.Holds pending members) :
    pending.isSome = true ↔ members ≠ [] := by
  rcases pending with _ | p
  · rw [show members = [] from h]
    exact ⟨fun hsome => (Bool.false_ne_true hsome).elim, fun hne => absurd rfl hne⟩
  · exact ⟨fun _ => h.ne_nil, fun _ => rfl⟩

/-- The count of segments is the number of those held. -/
theorem Holds.segments_eq (h : s.Holds (some p) members) : p.segments = members.length := by
  rcases h with ⟨first, rest, _, rfl, _, m⟩
  exact m.segments_eq

theorem Ready.discardFrame (ready : s.Ready) (id : FrameId) : (s.discardFrame id).Ready :=
  ⟨ready.spares, ready.sound.discard id⟩

theorem Fresh.discardFrame (fresh : s.Fresh) (id : FrameId) : (s.discardFrame id).Fresh := by
  rw [Fresh, stored?_discardFrame]
  have hnext : (s.discardFrame id).frames.storage.next = s.frames.storage.next :=
    s.frames.storage.next_discard id
  rw [hnext]
  by_cases hid : id = s.frames.storage.next
  · exact if_pos hid
  · exact (if_neg hid).trans fresh

/-- Without the frame of an aggregate, what is stored is what is outside of
    it. -/
theorem stored?_discard_eq_outside (s : Services) (p : Pending) :
    (s.discardFrame p.frame).stored? = s.outside (some p) := by
  rw [stored?_discardFrame]
  exact funext fun id => (s.outside_some p id).symm

@[simp] theorem frames_logSize (s : Services) (p : Pending) (h : Headers) :
    (s.logSize p h).2.frames = s.frames := by
  unfold logSize
  split <;> rfl

/-- Writing down the size of a segment does not change what was merged. -/
theorem merged_logSize {first : Segment} {stored : Frame} {rest : List Segment} (s : Services)
    (h : Headers) (m : Merged first p stored rest) :
    Merged first (s.logSize p h).1 stored rest := by
  unfold logSize
  split
  · exact .logged p stored rest m
  · exact m

@[simp] theorem frame_logSize (s : Services) (p : Pending) (h : Headers) :
    (s.logSize p h).1.frame = p.frame := by
  unfold logSize
  split <;> rfl

/-- What is left of a service that only keeps books. -/
theorem Ready.of_frames_eq {s' : Services} (ready : s.Ready) (h : s'.frames = s.frames) :
    s'.Ready :=
  ⟨(congrArg (fun f : FrameDepot => f.outages.take) h).trans ready.spares, h ▸ ready.sound⟩

theorem stored?_congr {s s' : Services} (h : s'.frames = s.frames) : s'.stored? = s.stored? := by
  unfold stored?
  rw [h]

/-- A frame that was stored under the next identifier is there, and nothing else
    has changed. -/
theorem stored_of_put {s' : Services} {frame : Frame} {outages : Outages} (ready : s.Ready)
    (fresh : s.Fresh) (hframes : s'.frames = ⟨s.frames.storage.put frame, outages⟩)
    (htake : outages.take = s.frames.outages.take) :
    s'.Ready ∧ s'.stored? s.frames.storage.next = some frame ∧
      (fun id => if s.frames.storage.next = id then none else s'.stored? id) = s.stored? ∧
      s'.frames.storage.next.number = s.frames.storage.next.number + 1 := by
  have hstored : ∀ id, s'.stored? id
      = if s.frames.storage.next = id then some frame else s.stored? id := by
    intro id
    rw [stored?, hframes]
    exact s.frames.storage.get?_put frame id
  refine ⟨⟨?_, ?_⟩, ?_, ?_, ?_⟩
  · rw [SparesTakes, hframes, htake]
    exact ready.spares
  · rw [hframes]
    exact ready.sound.put frame fresh
  · rw [hstored, if_pos rfl]
  · ext id : 1
    rw [hstored]
    by_cases hid : s.frames.storage.next = id
    · rw [if_pos hid, ← hid]
      exact fresh.symm
    · rw [if_neg hid, if_neg hid]
  · rw [hframes]
    rfl

/-- Storage has no room for a segment that is to open an aggregate, or the frame
    is stored under the next identifier and is all that was merged. -/
theorem openAggregate_cases (s : Services) (flow : UInt64) (segment : Segment) (timer : TimerId)
    (policy : Policy) (extras : Extras) (genuine : segment.Genuine)
    (opens : segment.canOpen policy = true) :
    ∃ outages : Outages, outages.take = s.frames.outages.take ∧
      (((s.openAggregate flow segment timer policy extras).1 = none ∧
        (s.openAggregate flow segment timer policy extras).2.frames
          = ⟨s.frames.storage, outages⟩) ∨
      ∃ p, (s.openAggregate flow segment timer policy extras).1 = some p ∧
        p.frame = s.frames.storage.next ∧ Merged segment p segment.frame [] ∧
        (s.openAggregate flow segment timer policy extras).2.frames
          = ⟨s.frames.storage.put segment.frame, outages⟩) := by
  rcases s.storeFrame_cases segment.frame with ⟨outages, htake, ⟨cause, hstore⟩ | hstore⟩
  · refine ⟨outages, htake, Or.inl ?_⟩
    simp only [openAggregate, hstore]
    exact ⟨trivial, rfl⟩
  -- What is left after storing is given a name, so that the log and the counters are seen to
  -- leave its frames alone.
  · generalize hleft : ({ s with frames := ⟨s.frames.storage.put segment.frame, outages⟩ } :
      Services) = left at hstore
    refine ⟨outages, htake, Or.inr ⟨(left.logSize
      (.ofSegment segment timer s.frames.storage.next policy extras) segment.headers).1, ?_, ?_,
      merged_logSize _ _ (.opened timer _ policy extras genuine opens), ?_⟩⟩
    · simp only [openAggregate, hstore]
    · rw [frame_logSize]
      rfl
    · simp only [openAggregate, hstore, frames_note, frames_count, frames_logSize, ← hleft]

/-- Storage refuses to append a segment that the verdict accepts, or the stored
    frame grows and the segment is merged. -/
theorem appendSegment_cases (s : Services) (p : Pending) (segment : Segment) (policy : Policy)
    {first : Segment} {rest : List Segment} {stored : Frame}
    (hstored : s.stored? p.frame = some stored) (m : Merged first p stored rest)
    (genuine : segment.Genuine)
    (appends : p.verdict segment policy = .merge ∨ p.verdict segment policy = .mergeThenClose) :
    ∃ outages : Outages, outages.take = s.frames.outages.take ∧
      ((∃ cause, (s.appendSegment p segment).1 = .error cause ∧
        (s.appendSegment p segment).2.frames = ⟨s.frames.storage, outages⟩) ∨
      ∃ p', (s.appendSegment p segment).1 = .ok p' ∧ p'.frame = p.frame ∧
        Merged first p' (stored.append (segment.frame.octets.drop segment.headers.length))
          (rest ++ [segment]) ∧
        (s.appendSegment p segment).2.frames = ⟨s.frames.storage.grow p.frame stored
          (segment.frame.octets.drop segment.headers.length), outages⟩) := by
  -- Storage may refuse for reasons of its own, and then the pending aggregate is as it was.
  rcases s.extendFrame_cases p.frame segment.frame segment.headers.length with
    ⟨outages, htake, ⟨cause, hextend⟩ | ⟨frame, hframe, hextend⟩⟩
  · refine ⟨outages, htake, Or.inl ⟨cause, ?_⟩⟩
    simp only [appendSegment, hextend]
    exact ⟨trivial, trivial⟩
  · rw [hstored, Option.some.injEq] at hframe
    subst hframe
    generalize hleft : ({ s with frames := ⟨s.frames.storage.grow p.frame stored
      (segment.frame.octets.drop segment.headers.length), outages⟩ } : Services) = left at hextend
    refine ⟨outages, htake, Or.inr ⟨(left.logSize (p.grow segment.headers
      (stored.append (segment.frame.octets.drop segment.headers.length)).length)
      segment.headers).1, ?_, ?_,
      merged_logSize _ _ (.grown p stored rest segment policy m genuine appends), ?_⟩⟩
    · simp only [appendSegment, hextend]
    · rw [frame_logSize]
      rfl
    · simp only [appendSegment, hextend, frames_note, frames_count, frames_logSize, ← hleft]

/-- Opening an aggregate either loses the segment and leaves storage alone or
    stores its frame under the next identifier. -/
theorem openAggregate_spec (s : Services) (flow : UInt64) (segment : Segment) (timer : TimerId)
    (policy : Policy) (extras : Extras) (ready : s.Ready) (fresh : s.Fresh)
    (genuine : segment.Genuine) (opens : segment.canOpen policy = true) :
    (s.openAggregate flow segment timer policy extras).2.Ready ∧
      (((s.openAggregate flow segment timer policy extras).1 = none ∧
        (s.openAggregate flow segment timer policy extras).2.stored? = s.stored?) ∨
      ∃ p, (s.openAggregate flow segment timer policy extras).1 = some p ∧
        p.frame = s.frames.storage.next ∧
        (s.openAggregate flow segment timer policy extras).2.Holds (some p) [segment] ∧
        (s.openAggregate flow segment timer policy extras).2.outside (some p) = s.stored? ∧
        (s.openAggregate flow segment timer policy extras).2.frames.storage.next.number
          = s.frames.storage.next.number + 1) := by
  rcases s.openAggregate_cases flow segment timer policy extras genuine opens with
    ⟨outages, htake, ⟨hnone, hframes⟩ | ⟨p, hopened, hframe, m, hframes⟩⟩
  · refine ⟨⟨?_, ?_⟩, Or.inl ⟨hnone, ?_⟩⟩
    · rw [SparesTakes, hframes]
      exact htake.trans ready.spares
    · rw [hframes]
      exact ready.sound
    · unfold stored?
      rw [hframes]
  · rcases stored_of_put ready fresh hframes htake with ⟨hready, hstored, houtside, hnext⟩
    refine ⟨hready, Or.inr ⟨p, hopened, hframe, ?_, ?_, hnext⟩⟩
    · refine ⟨segment, [], segment.frame, rfl, ?_, m⟩
      rw [hframe]
      exact hstored
    · ext id : 1
      rw [outside_some, hframe]
      exact congrFun houtside id

/-- Appending a segment that the verdict accepts either fails and leaves storage
    alone or merges the segment. -/
theorem appendSegment_spec (s : Services) (p : Pending) (segment : Segment) (policy : Policy)
    (ready : s.Ready) (holds : s.Holds (some p) members) (genuine : segment.Genuine)
    (appends : p.verdict segment policy = .merge ∨ p.verdict segment policy = .mergeThenClose) :
    (s.appendSegment p segment).2.Ready ∧
      ((∃ cause, (s.appendSegment p segment).1 = .error cause ∧
        (s.appendSegment p segment).2.stored? = s.stored?) ∨
      ∃ p', (s.appendSegment p segment).1 = .ok p' ∧ p'.frame = p.frame ∧
        (s.appendSegment p segment).2.Holds (some p') (members ++ [segment]) ∧
        (s.appendSegment p segment).2.outside (some p') = s.outside (some p)) := by
  -- The verdict was about the aggregate that is stored, and it is this one that
  -- the segment is appended to.
  rcases holds with ⟨first, rest, stored, rfl, hstored, m⟩
  rcases s.appendSegment_cases p segment policy hstored m genuine appends with
    ⟨outages, htake, ⟨cause, herror, hframes⟩ | ⟨p', happended, hframe, m', hframes⟩⟩
  · refine ⟨⟨?_, ?_⟩, Or.inl ⟨cause, herror, ?_⟩⟩
    · rw [SparesTakes, hframes]
      exact htake.trans ready.spares
    · rw [hframes]
      exact ready.sound
    · unfold stored?
      rw [hframes]
  · -- The frame grows in its place, and the others stay.
    have hgrown : ∀ id, (s.appendSegment p segment).2.stored? id = if p.frame = id then
        some (stored.append (segment.frame.octets.drop segment.headers.length))
        else s.stored? id := by
      intro id
      rw [stored?, hframes]
      exact s.frames.storage.get?_grow p.frame id stored _
    refine ⟨⟨?_, ?_⟩, Or.inr ⟨p', happended, hframe, ?_, ?_⟩⟩
    · rw [SparesTakes, hframes]
      exact htake.trans ready.spares
    · rw [hframes]
      exact ready.sound.grow p.frame stored _ hstored
    · refine ⟨first, rest ++ [segment], _, rfl, ?_, m'⟩
      rw [hgrown, hframe]
      exact if_pos rfl
    · ext id : 1
      rw [outside_some, outside_some, hgrown, hframe]
      by_cases hid : p.frame = id
      · rw [if_pos hid, if_pos hid]
      · rw [if_neg hid, if_neg hid, if_neg hid]

theorem Holds.of_frames_eq {s' : Services} {pending : Option Pending}
    (holds : s.Holds pending members) (h : s'.frames = s.frames) : s'.Holds pending members := by
  rcases pending with _ | p
  · exact holds
  · simp only [Holds, stored?_congr h]
    exact holds

theorem Fresh.of_frames_eq {s' : Services} (fresh : s.Fresh) (h : s'.frames = s.frames) :
    s'.Fresh := by
  rw [Fresh, stored?, h]
  exact fresh

/-- Closing takes the frame out and gives an aggregate of its segments. -/
theorem closeAggregate_spec (s : Services) (p : Pending) (ready : s.Ready)
    (holds : s.Holds (some p) members) :
    ∃ aggregate, (s.closeAggregate p).1 = some aggregate ∧ Closing aggregate members ∧
      (s.closeAggregate p).2.Ready ∧
      (s.closeAggregate p).2.frames = (s.discardFrame p.frame).frames ∧
      (s.closeAggregate p).2.stored? = s.outside (some p) := by
  rcases holds with ⟨first, rest, stored, rfl, hstored, m⟩
  -- That sealing cannot fail is why no frame is lost here.
  rcases m.represents with ⟨aggregate, hsealed, _⟩
  have hframes : (s.closeAggregate p).2.frames = (s.discardFrame p.frame).frames := by
    simp only [closeAggregate, takeFrame_eq s p.frame ready.spares, hstored, hsealed]
    rfl
  refine ⟨aggregate, ?_, ⟨first, rest, p, stored, rfl, m, hsealed⟩,
    (ready.discardFrame p.frame).of_frames_eq hframes, hframes, ?_⟩
  · simp only [closeAggregate, takeFrame_eq s p.frame ready.spares, hstored, hsealed]
  · rw [stored?_congr hframes, stored?_discard_eq_outside]

/-- A relayed frame comes back as it was, or not at all, and leaves nothing
    behind. -/
theorem relay_spec (s : Services) (frame : Frame) (ready : s.Ready) (fresh : s.Fresh) :
    (s.relay frame).2.Ready ∧ (s.relay frame).2.stored? = s.stored? ∧
      ((∃ cause, (s.relay frame).1 = .error cause) ∨ (s.relay frame).1 = .ok frame) := by
  rcases s.storeFrame_cases frame with ⟨outages, htake, ⟨cause, hstore⟩ | hstore⟩
  · simp only [relay, hstore]
    exact ⟨⟨htake.trans ready.spares, ready.sound⟩, rfl, Or.inl ⟨cause, rfl⟩⟩
  · generalize hleft : ({ s with frames := ⟨s.frames.storage.put frame, outages⟩ } :
      Services) = left at hstore
    have hframes : left.frames = ⟨s.frames.storage.put frame, outages⟩ := by rw [← hleft]
    -- It is stored under a free identifier and taken out of it again.
    rcases stored_of_put ready fresh hframes htake with ⟨hready, hstored, houtside, _⟩
    simp only [relay, hstore, takeFrame_eq left _ hready.spares, hstored]
    refine ⟨hready.discardFrame _, ?_, Or.inr trivial⟩
    rw [stored?_discardFrame]
    exact houtside

end Services

/-- What a call on a flow comes to and leaves: the books can be kept, the
    aggregate that is pending now is stored, and no other frame was touched. -/
structure Turn.Accounts (turn : Turn) (s : Services) (pending : Option Pending)
    (segment : Segment) (members members' : List Segment) : Prop where
  outcome : Outcome segment members turn.output members'
  holds : turn.services.Holds turn.flow members'
  outside : turn.services.outside turn.flow = s.outside pending
  ready : turn.services.Ready
  /-- An aggregate keeps its identifier, and a new one has the next. -/
  frame : ∀ p', turn.flow = some p' → (∃ p, pending = some p ∧ p'.frame = p.frame) ∨
    (p'.frame = s.frames.storage.next ∧
      turn.services.frames.storage.next.number = s.frames.storage.next.number + 1)

/-- After a call that leaves nothing pending, nothing waits and there is no frame
    to account for. -/
theorem Turn.Accounts.ended {turn : Turn} {s : Services} {pending : Option Pending}
    {segment : Segment} {members : List Segment} (outcome : Outcome segment members turn.output [])
    (hflow : turn.flow = none) (hstored : turn.services.stored? = s.outside pending)
    (ready : turn.services.Ready) : turn.Accounts s pending segment members [] := by
  constructor
  case outcome => exact outcome
  case holds =>
    rw [hflow]
    rfl
  case outside => rw [hflow, Services.outside_none, hstored]
  case ready => exact ready
  case frame =>
    intro p' hp'
    rw [hflow] at hp'
    cases hp'

namespace Services

variable {s : Services} {p : Pending} {members : List Segment} {segment : Segment}

/-- A segment that finds nothing pending is opened, passed on or refused. -/
theorem onIdle_accounts (s : Services) (flow : UInt64) (segment : Segment) (policy : Policy)
    (extras : Extras) (ready : s.Ready) (fresh : s.Fresh) (genuine : segment.Genuine) :
    ∃ members', (s.onIdle flow segment policy extras).Accounts s none segment [] members' := by
  unfold onIdle
  by_cases hopens : segment.canOpen policy = true
  case neg =>
    rw [if_neg hopens]
    exact ⟨[], .ended (.passed _ (Or.inl rfl)) rfl s.outside_none.symm (ready.of_frames_eq rfl)⟩
  rw [if_pos hopens]
  rcases harm : s.armTimer (policy.timerSetup flow) with ⟨cause | timer, s1⟩
  all_goals have hframes : s1.frames = s.frames := congrArg (fun r => r.2.frames) harm.symm
  · exact ⟨[], .ended (.passed _ (Or.inr rfl)) rfl
      ((stored?_congr hframes).trans s.outside_none.symm) (ready.of_frames_eq hframes)⟩
  · -- Arming the timer left storage as it was, so the segment can be stored.
    have hspec := s1.openAggregate_spec flow segment timer policy extras
      (ready.of_frames_eq hframes) (fresh.of_frames_eq hframes) genuine hopens
    rw [hframes, stored?_congr hframes] at hspec
    rcases hopen : s1.openAggregate flow segment timer policy extras with ⟨opened, s2⟩
    rw [hopen] at hspec
    rcases hspec with ⟨hready, ⟨rfl, hstored⟩ | ⟨p, rfl, hframe, hholds, houtside, hnext⟩⟩
    · simp only [hopen]
      exact ⟨[], .ended .refused rfl (hstored.trans s.outside_none.symm) hready⟩
    · simp only [hopen]
      refine ⟨[segment], .opened, hholds, houtside.trans s.outside_none.symm, hready, ?_⟩
      intro p' hp'
      cases hp'
      exact Or.inr ⟨hframe, hnext⟩

theorem outside_congr {s' : Services} (h : s'.stored? = s.stored?) (pending : Option Pending) :
    s'.outside pending = s.outside pending := by
  unfold outside
  rw [h]

/-- Dropping an aggregate drops its frame. -/
theorem abandon_spec (s : Services) (p : Pending) (ready : s.Ready) :
    (s.abandon p).Ready ∧ (s.abandon p).stored? = s.outside (some p) := by
  have hframes : (s.abandon p).frames = (s.discardFrame p.frame).frames := rfl
  refine ⟨(ready.discardFrame p.frame).of_frames_eq hframes, ?_⟩
  rw [stored?_congr hframes, stored?_discard_eq_outside]

/-- A segment that is merged waits with the others, or all are lost. -/
theorem merge_accounts (s : Services) (flow : UInt64) (p : Pending) (segment : Segment)
    (policy : Policy) (ready : s.Ready) (holds : s.Holds (some p) members)
    (genuine : segment.Genuine) (hverdict : p.verdict segment policy = .merge) :
    ∃ members', (s.merge flow p segment).Accounts s (some p) segment members members' := by
  -- What cannot be appended takes the aggregate with it.
  have hspec := s.appendSegment_spec p segment policy ready holds genuine (Or.inl hverdict)
  unfold merge
  rcases happend : s.appendSegment p segment with ⟨appended, s1⟩
  rw [happend] at hspec
  rcases hspec with ⟨hready, ⟨cause, rfl, hstored⟩ | ⟨p', rfl, hframe, hholds, houtside⟩⟩
  · simp only
    rcases abandon_spec (s1.note (.appendFailed flow cause)) p (hready.of_frames_eq rfl) with
      ⟨habandoned, houtside⟩
    refine ⟨[], .ended (.lost members) rfl ?_ habandoned⟩
    rw [houtside]
    exact outside_congr hstored (some p)
  · simp only
    refine ⟨members ++ [segment], .merged members, hholds, houtside, hready, ?_⟩
    intro p'' hp''
    cases hp''
    exact Or.inl ⟨p, rfl, hframe⟩

/-- A segment that closes the aggregate goes with it, or all are lost. -/
theorem mergeThenClose_accounts (s : Services) (flow : UInt64) (p : Pending) (segment : Segment)
    (policy : Policy) (ready : s.Ready) (holds : s.Holds (some p) members)
    (genuine : segment.Genuine) (hverdict : p.verdict segment policy = .mergeThenClose) :
    ∃ members', (s.mergeThenClose flow p segment).Accounts s (some p) segment members members' := by
  -- The timer was given back first, which storage does not notice.
  have hspec := (s.releaseTimer p.timer).appendSegment_spec p segment policy
    (ready.of_frames_eq rfl) holds genuine (Or.inr hverdict)
  unfold mergeThenClose
  rcases happend : (s.releaseTimer p.timer).appendSegment p segment with ⟨appended, s1⟩
  rw [happend] at hspec
  rcases hspec with ⟨hready, ⟨cause, rfl, hstored⟩ | ⟨p', rfl, hframe, hholds, houtside⟩⟩
  · simp only
    rcases abandon_spec (s1.note (.closingAppendFailed flow cause)) p (hready.of_frames_eq rfl) with
      ⟨habandoned, houtside⟩
    refine ⟨[], .ended (.lost members) rfl ?_ habandoned⟩
    rw [houtside]
    exact outside_congr hstored (some p)
  · simp only at hready hholds houtside
    rcases s1.closeAggregate_spec p' hready hholds with
      ⟨aggregate, hclosed, hclosing, hready', _, hleft⟩
    simp only [hclosed]
    refine ⟨[], .ended (.mergedClosing members aggregate hclosing) rfl ?_ hready'⟩
    rw [hleft, houtside]
    rfl

/-- The aggregate is closed first, and the segment goes its own way. -/
theorem closeThenPass_accounts (s : Services) (flow : UInt64) (p : Pending) (segment : Segment)
    (policy : Policy) (ready : s.Ready) (fresh : s.Fresh) (holds : s.Holds (some p) members) :
    ∃ members',
      (s.closeThenPass flow p segment policy).Accounts s (some p) segment members members' := by
  rcases (s.releaseTimer p.timer).closeAggregate_spec p (ready.of_frames_eq rfl) holds with
    ⟨aggregate, hclosed, hclosing, hready, hframes, hleft⟩
  -- The segment is relayed through the storage that closing left.
  have hfresh := (fresh.discardFrame p.frame).of_frames_eq hframes
  rcases relay_spec _ segment.frame hready hfresh with ⟨hrelayed, hstored, hresult⟩
  unfold closeThenPass
  rcases hrelay : Services.relay ((s.releaseTimer p.timer).closeAggregate p).2 segment.frame with
    ⟨result, s1⟩
  rw [hrelay] at hrelayed hstored hresult
  simp only at hrelayed hstored hresult
  have houtside : s1.stored? = s.outside (some p) := by
    rw [hstored, hleft]
    rfl
  rcases hresult with ⟨cause, rfl⟩ | rfl
  · simp only [hclosed, hrelay]
    exact ⟨[], .ended (.closedRefusing members aggregate hclosing) rfl houtside
      (hrelayed.of_frames_eq rfl)⟩
  · simp only [hclosed, hrelay]
    exact ⟨[], .ended (.closedPassing members aggregate {} hclosing (Or.inl rfl)) rfl houtside
      hrelayed⟩

/-- Whatever becomes of the timer, its renewal leaves storage alone. -/
theorem frames_renewTimer (s : Services) (flow : UInt64) (timer : TimerId) (policy : Policy) :
    (s.renewTimer flow timer policy).2.frames = s.frames := by
  unfold renewTimer
  rcases hrestart : s.restartTimer timer with ⟨cause | _, s1⟩
  all_goals exact congrArg (fun r => r.2.frames) hrestart.symm

/-- The aggregate is closed first, and the segment opens the next. -/
theorem closeThenOpen_accounts (s : Services) (flow : UInt64) (p : Pending) (segment : Segment)
    (policy : Policy) (extras : Extras) (ready : s.Ready) (fresh : s.Fresh)
    (holds : s.Holds (some p) members) (genuine : segment.Genuine)
    (opens : segment.canOpen policy = true) :
    ∃ members', (s.closeThenOpen flow p segment policy extras).Accounts s (some p) segment
      members members' := by
  rcases s.closeAggregate_spec p ready holds with
    ⟨aggregate, hclosed, hclosing, hready, hframes, hleft⟩
  unfold closeThenOpen
  rcases hrenew : Services.renewTimer (s.closeAggregate p).2 flow p.timer policy with
    ⟨cause | timer, s1⟩
  all_goals
    have hrenewed := (congrArg (fun r => r.2.frames) hrenew).symm.trans
      (frames_renewTimer (s.closeAggregate p).2 flow p.timer policy)
    simp only at hrenewed
    have hstored : s1.stored? = s.outside (some p) := (stored?_congr hrenewed).trans hleft
  · -- Without a timer the segment cannot open the next aggregate.
    simp only [hclosed, hrenew]
    exact ⟨[], .ended (.closedPassing members aggregate _ hclosing (Or.inr rfl)) rfl hstored
      (hready.of_frames_eq hrenewed)⟩
  · have hspec := s1.openAggregate_spec flow segment timer policy extras
      (hready.of_frames_eq hrenewed)
      ((fresh.discardFrame p.frame).of_frames_eq (hrenewed.trans hframes)) genuine opens
    rw [hstored] at hspec
    simp only [hclosed, hrenew]
    rcases hopen : s1.openAggregate flow segment timer policy extras with ⟨opened, s2⟩
    rw [hopen] at hspec
    rcases hspec with ⟨hready', ⟨rfl, hstored'⟩ | ⟨p', rfl, hframe, hholds, houtside, hnext⟩⟩
    · exact ⟨[], .ended (.closedRefusing members aggregate hclosing) rfl hstored' hready'⟩
    · refine ⟨[segment], .closedOpening members aggregate hclosing, hholds, houtside, hready', ?_⟩
      intro p'' hp''
      cases hp''
      -- Closing and renewing give out no identifier, so the next is still the same.
      have hsame : s1.frames.storage.next = s.frames.storage.next := by
        rw [hrenewed, hframes]
        exact s.frames.storage.next_discard p.frame
      rw [hsame] at hframe hnext
      exact Or.inr ⟨hframe, hnext⟩

/-- What a call comes to does not depend on what was counted or noticed
    first. -/
theorem accounts_of_frames_eq {turn : Turn} {s s' : Services} {pending : Option Pending}
    {members' : List Segment} (h : turn.Accounts s' pending segment members members')
    (hframes : s'.frames = s.frames) : turn.Accounts s pending segment members members' := by
  refine ⟨h.outcome, h.holds, h.outside.trans (outside_congr (stored?_congr hframes) pending),
    h.ready, ?_⟩
  rw [← hframes]
  exact h.frame

/-- A segment that finds an aggregate pending, whatever the verdict is. -/
theorem onPending_accounts (s : Services) (flow : UInt64) (p : Pending) (segment : Segment)
    (policy : Policy) (extras : Extras) (ready : s.Ready) (fresh : s.Fresh)
    (holds : s.Holds (some p) members) (genuine : segment.Genuine) :
    ∃ members', (s.onPending flow p segment policy extras).Accounts s (some p) segment
      members members' := by
  rcases s.onPending_cases flow p segment policy extras with
    ⟨hverdict, hturn⟩ | ⟨hverdict, hturn⟩ | ⟨_, _, s', hframes, _, _, ⟨hopens, hturn⟩ | ⟨_, hturn⟩⟩
  all_goals rw [hturn]
  · exact merge_accounts s flow p segment policy ready holds genuine hverdict
  · exact mergeThenClose_accounts s flow p segment policy ready holds genuine hverdict
  · rcases closeThenOpen_accounts s' flow p segment policy extras (ready.of_frames_eq hframes)
      (fresh.of_frames_eq hframes) (holds.of_frames_eq hframes) genuine hopens with ⟨members', h⟩
    exact ⟨members', accounts_of_frames_eq h hframes⟩
  · rcases closeThenPass_accounts s' flow p segment policy (ready.of_frames_eq hframes)
      (fresh.of_frames_eq hframes) (holds.of_frames_eq hframes) with ⟨members', h⟩
    exact ⟨members', accounts_of_frames_eq h hframes⟩

end Services

end ReceiveOffload
