import ReceiveOffload.Proofs.Fates

/-!
# What a Turn Leaves When Storage Refuses

A call on a flow, with nothing assumed of what storage is going to refuse. It
settles what becomes of each segment, and it leaves the aggregate of the flow
stored with the segments that it should have.

For the other flows it is enough that their frames are left alone. A frame that
could not be taken out is nobody's, but it keeps its identifier, and identifiers
are given out once, so it does not get into anybody's way. A call stores one
frame at most, and only as its last step. All steps before that one can only
take frames away, which is what `Services.Spares` says.

## Main definitions

* `Services.Spares`: Nothing is stored, and the frames of others stay.
* `Services.Keeps`: At most the next identifier is given out, and the frames of
  others stay.
* `Turn.Settles`: What a call comes to and leaves.

## Theorems

* `Services.closeAggregate_yields`: Closing hands out the segments or loses
  them.
* `Services.onIdle_settles`, `Services.onPending_settles`: A segment that is
  offered.
-/

namespace ReceiveOffload

/-- A segment that asks to be handed on at once closes the aggregate that it is
    appended to. -/
theorem Pending.pushes_of_merge (p : Pending) (segment : Segment) (policy : Policy)
    (h : p.verdict segment policy = .merge) : segment.headers.pushes = false := by
  by_contra hpushes
  rw [Bool.not_eq_false] at hpushes
  have hclosed : p.closedBy segment.headers (p.sizeWith segment) policy = true := by
    simp only [closedBy, hpushes, true_or, decide_true]
  unfold verdict at h
  simp only [hclosed, if_true] at h
  split_ifs at h

namespace Services

/-- Nothing is stored, and of the frames only the given one may be gone or have
    changed. -/
structure Spares (s : Services) (own : Option FrameId) (s' : Services) : Prop where
  kept : ∀ id, own ≠ some id → s'.stored? id = s.stored? id
  given : ∀ id, s'.stored? id ≠ none → s.stored? id ≠ none
  next : s'.frames.storage.next = s.frames.storage.next

/-- At most the next identifier is given out, and of the frames that were stored
    only the given one may be gone or have changed. -/
structure Keeps (s : Services) (own : Option FrameId) (s' : Services) : Prop where
  kept : ∀ id, own ≠ some id → s.stored? id ≠ none → s'.stored? id = s.stored? id
  given : ∀ id, s'.stored? id ≠ none → s.stored? id ≠ none ∨
    (id = s.frames.storage.next ∧
      s'.frames.storage.next.number = s.frames.storage.next.number + 1)

variable {s s₁ s' : Services} {own : Option FrameId} {p : Pending} {members : List Segment}
  {segment : Segment}

/-- Nothing was done to storage. -/
theorem Spares.of_storage_eq (h : s'.frames.storage = s.frames.storage) : s.Spares own s' := by
  have hstored : ∀ id, s'.stored? id = s.stored? id := by
    intro id
    unfold stored?
    rw [h]
  constructor
  case kept => exact fun id _ => hstored id
  case given => exact fun id hid => (hstored id) ▸ hid
  case next => rw [h]

/-- A frame of its own was removed. -/
theorem Spares.of_discard (id : FrameId)
    (h : s'.frames.storage = s.frames.storage.discard id) : s.Spares (some id) s' := by
  have hstored : ∀ j, s'.stored? j = if id = j then none else s.stored? j := by
    intro j
    unfold stored?
    rw [h, FrameStorage.get?_discard]
  constructor
  case kept =>
    intro j hj
    rw [hstored, if_neg (fun hid => hj (congrArg some hid))]
  case given =>
    intro j hj hnone
    rw [hstored, hnone, ite_self] at hj
    exact hj rfl
  case next => rw [h, FrameStorage.next_discard]

/-- A frame of its own has grown. -/
theorem Spares.of_grow (id : FrameId) (frame : Frame) (octets : Octets)
    (hframe : s.stored? id = some frame)
    (h : s'.frames.storage = s.frames.storage.grow id frame octets) : s.Spares (some id) s' := by
  have hstored : ∀ j, s'.stored? j
      = if id = j then some (frame.append octets) else s.stored? j := by
    intro j
    unfold stored?
    rw [h, FrameStorage.get?_grow]
  constructor
  case kept =>
    intro j hj
    rw [hstored, if_neg (fun hid => hj (congrArg some hid))]
  case given =>
    intro j hj hnone
    rw [hstored] at hj
    by_cases hid : id = j
    · rw [← hid, hframe] at hnone
      cases hnone
    · rw [if_neg hid] at hj
      exact hj hnone
  case next => rw [h]; rfl

theorem Spares.keeps (h : s.Spares own s') : s.Keeps own s' where
  kept id hid _ := h.kept id hid
  given id hid := Or.inl (h.given id hid)

theorem Keeps.of_storage_eq (h : s'.frames.storage = s.frames.storage) : s.Keeps own s' :=
  (Spares.of_storage_eq h).keeps

/-- What is counted or noticed last makes no difference to storage. -/
theorem Keeps.of_frames_eq (h : s.Keeps own s₁) (hframes : s'.frames = s₁.frames) :
    s.Keeps own s' := by
  have hstored : s'.stored? = s₁.stored? := stored?_congr hframes
  constructor
  case kept =>
    rw [hstored]
    exact h.kept
  case given =>
    rw [hstored, hframes]
    exact h.given

/-- Steps that spare the others do so together. -/
theorem Spares.trans (h : s.Spares own s₁) (h' : s₁.Spares own s') : s.Spares own s' where
  kept id hid := (h'.kept id hid).trans (h.kept id hid)
  given id hid := h.given id (h'.given id hid)
  next := h'.next.trans h.next

/-- What is stored last is stored under the identifier that was the next all
    along. -/
theorem Spares.then (h : s.Spares own s₁) (h' : s₁.Keeps own s') : s.Keeps own s' where
  kept id hid hsome :=
    (h'.kept id hid ((h.kept id hid).symm ▸ hsome)).trans (h.kept id hid)
  given id hid := by
    rcases h'.given id hid with hold | ⟨hnext, hcount⟩
    · exact Or.inl (h.given id hold)
    · rw [h.next] at hnext hcount
      exact Or.inr ⟨hnext, hcount⟩

/-- An identifier that is free stays free while nothing is stored. -/
theorem Spares.fresh (h : s.Spares own s') (fresh : s.Fresh) : s'.Fresh := by
  by_contra hstored
  have hold := h.given _ hstored
  rw [h.next] at hold
  exact hold fresh

/-- A frame was stored under the next identifier. -/
theorem Keeps.of_put (frame : Frame) (fresh : s.Fresh)
    (h : s'.frames.storage = s.frames.storage.put frame) : s.Keeps own s' := by
  have hstored : ∀ id, s'.stored? id
      = if s.frames.storage.next = id then some frame else s.stored? id := by
    intro id
    unfold stored?
    rw [h, FrameStorage.get?_put]
  constructor
  case kept =>
    -- The next identifier held nothing, so no frame was overwritten.
    intro id _ hsome
    rw [hstored, if_neg]
    intro hnext
    rw [← hnext] at hsome
    exact hsome fresh
  case given =>
    intro id hid
    rw [hstored] at hid
    by_cases hnext : s.frames.storage.next = id
    · refine Or.inr ⟨hnext.symm, ?_⟩
      rw [h]
      rfl
    · rw [if_neg hnext] at hid
      exact Or.inl hid

/-- Closing hands out the segments, with the frame taken out of storage, or loses
    them. -/
theorem closeAggregate_yields (s : Services) (p : Pending) (holds : s.Holds (some p) members) :
    (∃ handed lost, Yield members (s.closeAggregate p).1 handed lost) ∧
      s.Spares (some p.frame) (s.closeAggregate p).2 := by
  rcases holds with ⟨first, rest, stored, rfl, hstored, m⟩
  rcases s.takeFrame_cases p.frame with ⟨outages, htake | htake⟩
  · simp only [closeAggregate, htake]
    exact ⟨⟨[], first :: rest, .gone (List.cons_ne_nil first rest)⟩, .of_storage_eq rfl⟩
  · -- A frame that is given out can always be made an aggregate of.
    rcases m.represents with ⟨aggregate, hsealed, _⟩
    simp only [closeAggregate, htake, hstored, hsealed]
    exact ⟨⟨first :: rest, [], .given aggregate ⟨first, rest, p, stored, rfl, m, hsealed⟩⟩,
      .of_discard p.frame rfl⟩

/-- A relayed frame comes back as it was, or not at all. -/
theorem relay_keeps (s : Services) (own : Option FrameId) (frame : Frame) (fresh : s.Fresh) :
    s.Keeps own (s.relay frame).2 ∧
      ((∃ cause, (s.relay frame).1 = .error cause) ∨ (s.relay frame).1 = .ok frame) := by
  rcases s.storeFrame_cases frame with ⟨outages, _, ⟨cause, hstore⟩ | hstore⟩
  · simp only [relay, hstore]
    exact ⟨.of_storage_eq rfl, Or.inl ⟨cause, rfl⟩⟩
  · generalize hleft : ({ s with frames := ⟨s.frames.storage.put frame, outages⟩ } :
      Services) = left at hstore
    have hput : left.frames.storage = s.frames.storage.put frame := by rw [← hleft]
    rcases left.takeFrame_cases s.frames.storage.next with ⟨after, htake | htake⟩
    · simp only [relay, hstore, htake]
      exact ⟨.of_put frame fresh hput, Or.inl ⟨_, rfl⟩⟩
    · have hthere : left.stored? s.frames.storage.next = some frame := by
        rw [stored?, hput, FrameStorage.get?_put, if_pos rfl]
      simp only [relay, hstore, htake, hthere]
      refine ⟨?_, Or.inr trivial⟩
      -- It was stored under a free identifier, so all is as before without it.
      have hstored : ∀ id, (left.frames.storage.discard s.frames.storage.next).stored.get? id
          = s.stored? id := by
        intro id
        rw [FrameStorage.get?_discard, hput, FrameStorage.get?_put]
        by_cases hid : s.frames.storage.next = id
        · rw [if_pos hid, ← hid]
          exact fresh.symm
        · rw [if_neg hid, if_neg hid]
          rfl
      constructor
      case kept => exact fun id _ _ => hstored id
      case given => exact fun id hid => Or.inl (fun hnone => hid ((hstored id).trans hnone))

/-- Opening an aggregate loses the segment or stores its frame under the next
    identifier. -/
theorem openAggregate_keeps (s : Services) (own : Option FrameId) (flow : UInt64)
    (segment : Segment) (timer : TimerId) (policy : Policy) (extras : Extras) (fresh : s.Fresh)
    (genuine : segment.Genuine) (opens : segment.canOpen policy = true) :
    s.Keeps own (s.openAggregate flow segment timer policy extras).2 ∧
      ((s.openAggregate flow segment timer policy extras).1 = none ∨
      ∃ p, (s.openAggregate flow segment timer policy extras).1 = some p ∧
        p.frame = s.frames.storage.next ∧
        (s.openAggregate flow segment timer policy extras).2.Holds (some p) [segment] ∧
        (s.openAggregate flow segment timer policy extras).2.frames.storage.next.number
          = s.frames.storage.next.number + 1) := by
  rcases s.openAggregate_cases flow segment timer policy extras genuine opens with
    ⟨outages, _, ⟨hnone, hframes⟩ | ⟨p, hopened, hframe, m, hframes⟩⟩
  · exact ⟨.of_storage_eq (by rw [hframes]), Or.inl hnone⟩
  · refine ⟨.of_put segment.frame fresh (by rw [hframes]), Or.inr ⟨p, hopened, hframe, ?_, ?_⟩⟩
    · refine ⟨segment, [], segment.frame, rfl, ?_, m⟩
      rw [hframe, stored?, hframes, FrameStorage.get?_put, if_pos rfl]
    · rw [hframes]
      rfl

/-- Appending a segment that the verdict accepts fails and leaves the aggregate
    as it is, or merges the segment. -/
theorem appendSegment_spares (s : Services) (p : Pending) (segment : Segment) (policy : Policy)
    (holds : s.Holds (some p) members) (genuine : segment.Genuine)
    (appends : p.verdict segment policy = .merge ∨ p.verdict segment policy = .mergeThenClose) :
    s.Spares (some p.frame) (s.appendSegment p segment).2 ∧
      ((∃ cause, (s.appendSegment p segment).1 = .error cause) ∨
      ∃ p', (s.appendSegment p segment).1 = .ok p' ∧ p'.frame = p.frame ∧
        (s.appendSegment p segment).2.Holds (some p') (members ++ [segment])) := by
  rcases holds with ⟨first, rest, stored, rfl, hstored, m⟩
  rcases s.appendSegment_cases p segment policy hstored m genuine appends with
    ⟨outages, _, ⟨cause, herror, hframes⟩ | ⟨p', happended, hframe, m', hframes⟩⟩
  · exact ⟨.of_storage_eq (by rw [hframes]), Or.inl ⟨cause, herror⟩⟩
  · refine ⟨.of_grow p.frame stored _ hstored (by rw [hframes]),
      Or.inr ⟨p', happended, hframe, first, rest ++ [segment], _, rfl, ?_, m'⟩⟩
    rw [hframe, stored?, hframes, FrameStorage.get?_grow, if_pos rfl]

end Services

/-- What a call on a flow comes to and leaves: what becomes of each segment, that
    the aggregate that is pending now is stored, and that the frames of others
    were left alone. -/
structure Turn.Settles (turn : Turn) (s : Services) (pending : Option Pending)
    (segment : Segment) (members members' : List Segment) : Prop where
  fate : ∃ handed lost, Fate segment members turn.output handed lost members'
  holds : turn.services.Holds turn.flow members'
  keeps : s.Keeps (pending.map Pending.frame) turn.services
  /-- No segment is left in wait that asked to be handed on at once. -/
  unpushed : ∀ t ∈ members', t ∈ members ∨ t.headers.pushes = false
  /-- An aggregate that stays has its frame and one segment more, and a new one
      has a new frame and the segment. -/
  frame : ∀ p', turn.flow = some p' →
    (∃ p, pending = some p ∧ p'.frame = p.frame ∧ members' = members ++ [segment]) ∨
    (p'.frame = s.frames.storage.next ∧
      turn.services.frames.storage.next.number = s.frames.storage.next.number + 1 ∧
      members' = [segment])

section Settles

variable {turn : Turn} {s s' : Services} {pending : Option Pending} {segment : Segment}
  {members members' : List Segment}

/-- After a call that leaves nothing pending there is nothing to look after. -/
theorem Turn.Settles.ended {handed lost : List Segment}
    (fate : Fate segment members turn.output handed lost []) (hflow : turn.flow = none)
    (keeps : s.Keeps (pending.map Pending.frame) turn.services) :
    turn.Settles s pending segment members [] := by
  constructor
  case fate => exact ⟨handed, lost, fate⟩
  case holds =>
    rw [hflow]
    rfl
  case keeps => exact keeps
  case unpushed => exact fun t ht => absurd ht List.not_mem_nil
  case frame =>
    intro p' hp'
    rw [hflow] at hp'
    cases hp'

/-- After a call that opens an aggregate the segment is the only one. -/
theorem Turn.Settles.opened {handed lost : List Segment} {policy : Policy} {p : Pending}
    (fate : Fate segment members turn.output handed lost [segment]) (hflow : turn.flow = some p)
    (holds : turn.services.Holds (some p) [segment])
    (keeps : s.Keeps (pending.map Pending.frame) turn.services)
    (opens : segment.canOpen policy = true) (hframe : p.frame = s.frames.storage.next)
    (hcount : turn.services.frames.storage.next.number = s.frames.storage.next.number + 1) :
    turn.Settles s pending segment members [segment] := by
  simp only [Segment.canOpen, decide_eq_true_eq, Bool.not_eq_true] at opens
  constructor
  case fate => exact ⟨handed, lost, fate⟩
  case holds =>
    rw [hflow]
    exact holds
  case keeps => exact keeps
  case unpushed =>
    intro t ht
    rw [List.mem_singleton] at ht
    exact Or.inr (ht ▸ opens.1)
  case frame =>
    intro p' hp'
    rw [hflow, Option.some.injEq] at hp'
    exact Or.inr ⟨hp' ▸ hframe, hcount, rfl⟩

/-- What a call comes to does not depend on what was counted or noticed first. -/
theorem Turn.Settles.of_frames_eq (h : turn.Settles s' pending segment members members')
    (hframes : s'.frames = s.frames) : turn.Settles s pending segment members members' := by
  constructor
  case fate => exact h.fate
  case holds => exact h.holds
  case keeps => exact (Services.Spares.of_storage_eq (by rw [hframes])).then h.keeps
  case unpushed => exact h.unpushed
  case frame =>
    rw [← hframes]
    exact h.frame

end Settles

namespace Services

variable {s : Services} {p : Pending} {members : List Segment} {segment : Segment}

/-- A segment that finds nothing pending is opened, passed on or refused. -/
theorem onIdle_settles (s : Services) (flow : UInt64) (segment : Segment) (policy : Policy)
    (extras : Extras) (fresh : s.Fresh) (genuine : segment.Genuine) :
    ∃ members', (s.onIdle flow segment policy extras).Settles s none segment [] members' := by
  unfold onIdle
  by_cases hopens : segment.canOpen policy = true
  case neg =>
    rw [if_neg hopens]
    exact ⟨[], .ended (.passed _ (Or.inl rfl)) rfl (.of_storage_eq rfl)⟩
  rw [if_pos hopens]
  rcases harm : s.armTimer (policy.timerSetup flow) with ⟨cause | timer, s₁⟩
  -- Timers and frames have nothing to do with each other.
  all_goals have hframes : s₁.frames = s.frames := congrArg (fun r => r.2.frames) harm.symm
  · exact ⟨[], .ended (.passed _ (Or.inr rfl)) rfl
      (.of_storage_eq (congrArg FrameDepot.storage hframes))⟩
  · have hopen := s₁.openAggregate_keeps none flow segment timer policy extras
      (fresh.of_frames_eq hframes) genuine hopens
    simp only
    rcases hopened : s₁.openAggregate flow segment timer policy extras with ⟨opened, s₂⟩
    rw [hopened] at hopen
    rcases hopen with ⟨hkeeps, rfl | ⟨p, rfl, hframe, hholds, hcount⟩⟩
    · exact ⟨[], .of_frames_eq (.ended .refused rfl hkeeps) hframes⟩
    · exact ⟨[segment], .of_frames_eq (.opened .opened rfl hholds hkeeps hopens hframe hcount)
        hframes⟩

/-- A segment that is merged waits with the others, or all are lost. -/
theorem merge_settles (s : Services) (flow : UInt64) (p : Pending) (segment : Segment)
    (policy : Policy) (holds : s.Holds (some p) members) (genuine : segment.Genuine)
    (hverdict : p.verdict segment policy = .merge) :
    ∃ members', (s.merge flow p segment).Settles s (some p) segment members members' := by
  have happend := s.appendSegment_spares p segment policy holds genuine (Or.inl hverdict)
  unfold merge
  rcases hresult : s.appendSegment p segment with ⟨appended, s₁⟩
  rw [hresult] at happend
  rcases happend with ⟨hspares, ⟨cause, rfl⟩ | ⟨p', rfl, hframe, hholds⟩⟩
  · -- What cannot be appended takes the aggregate with it.
    exact ⟨[], .ended (.dropped members) rfl
      (Spares.keeps (hspares.trans (.of_discard p.frame rfl)))⟩
  · refine ⟨members ++ [segment],
      ⟨⟨[], [], .merged members holds.ne_nil⟩, hholds, hspares.keeps, ?_, ?_⟩⟩
    · intro t ht
      rcases List.mem_append.mp ht with hold | hnew
      · exact Or.inl hold
      · rw [List.mem_singleton] at hnew
        exact Or.inr (hnew ▸ p.pushes_of_merge segment policy hverdict)
    · intro p'' hp''
      cases hp''
      exact Or.inl ⟨p, rfl, hframe, rfl⟩

/-- A segment that closes the aggregate goes with it, or all are lost. -/
theorem mergeThenClose_settles (s : Services) (flow : UInt64) (p : Pending) (segment : Segment)
    (policy : Policy) (holds : s.Holds (some p) members) (genuine : segment.Genuine)
    (hverdict : p.verdict segment policy = .mergeThenClose) :
    ∃ members', (s.mergeThenClose flow p segment).Settles s (some p) segment members members' := by
  have happend := (s.releaseTimer p.timer).appendSegment_spares p segment policy holds genuine
    (Or.inr hverdict)
  unfold mergeThenClose
  rcases hresult : (s.releaseTimer p.timer).appendSegment p segment with ⟨appended, s₁⟩
  rw [hresult] at happend
  rcases happend with ⟨hspares, ⟨cause, rfl⟩ | ⟨p', rfl, hframe, hholds⟩⟩
  · exact ⟨[], .of_frames_eq (.ended (.dropped members) rfl
      (Spares.keeps (hspares.trans (.of_discard p.frame rfl)))) rfl⟩
  · rcases closeAggregate_yields s₁ p' hholds with ⟨⟨handed, lost, hyields⟩, hclosed⟩
    rw [hframe] at hclosed
    exact ⟨[], .of_frames_eq (.ended (.mergedClosing _ hyields) rfl
      (hspares.trans hclosed).keeps) rfl⟩

/-- The aggregate is closed first, and the segment goes its own way. -/
theorem closeThenPass_settles (s : Services) (flow : UInt64) (p : Pending) (segment : Segment)
    (policy : Policy) (fresh : s.Fresh) (holds : s.Holds (some p) members) :
    ∃ members',
      (s.closeThenPass flow p segment policy).Settles s (some p) segment members members' := by
  rcases closeAggregate_yields (s.releaseTimer p.timer) p holds with
    ⟨⟨handed, lost, hyields⟩, hclosed⟩
  have hrelay := relay_keeps ((s.releaseTimer p.timer).closeAggregate p).2 (some p.frame)
    segment.frame (hclosed.fresh fresh)
  unfold closeThenPass
  rcases hresult : (s.releaseTimer p.timer).closeAggregate p with ⟨aggregate, s₁⟩
  rw [hresult] at hyields hclosed hrelay
  simp only at hyields hclosed hrelay ⊢
  rcases hrelayed : s₁.relay segment.frame with ⟨result, s₂⟩
  rw [hrelayed] at hrelay
  rcases hrelay with ⟨hkeeps, ⟨cause, rfl⟩ | rfl⟩
  · exact ⟨[], .of_frames_eq (.ended (.closedRefusing aggregate hyields) rfl
      ((hclosed.then hkeeps).of_frames_eq rfl)) rfl⟩
  · -- Nothing is said of a segment that is passed on here.
    have hfate : Fate segment members
        ((Output.ofClosing aggregate { flushNow := true }).withSegment segment.frame)
        (handed ++ [segment]) lost [] := by
      rcases aggregate with _ | aggregate <;>
        exact .closedPassing _ {} hyields (Or.inl rfl)
    exact ⟨[], .of_frames_eq (.ended hfate rfl (hclosed.then hkeeps)) rfl⟩

theorem closeThenOpen_settles (s : Services) (flow : UInt64) (p : Pending) (segment : Segment)
    (policy : Policy) (extras : Extras) (fresh : s.Fresh) (holds : s.Holds (some p) members)
    (genuine : segment.Genuine) (opens : segment.canOpen policy = true) :
    ∃ members', (s.closeThenOpen flow p segment policy extras).Settles s (some p) segment
      members members' := by
  rcases closeAggregate_yields s p holds with ⟨⟨handed, lost, hyields⟩, hclosed⟩
  unfold closeThenOpen
  rcases hresult : s.closeAggregate p with ⟨aggregate, s₁⟩
  rw [hresult] at hyields hclosed
  have hrenew := frames_renewTimer s₁ flow p.timer policy
  simp only at hyields hclosed ⊢
  rcases hrenewed : s₁.renewTimer flow p.timer policy with ⟨cause | timer, s₂⟩
  all_goals
    rw [hrenewed] at hrenew
    -- The timers are no business of storage.
    have hspares : s.Spares (some p.frame) s₂ :=
      hclosed.trans (.of_storage_eq (congrArg FrameDepot.storage hrenew))
  · exact ⟨[], .ended (.closedPassing aggregate _ hyields (Or.inr rfl)) rfl
      (hspares.keeps.of_frames_eq rfl)⟩
  · have hopen := s₂.openAggregate_keeps (some p.frame) flow segment timer policy extras
      (hspares.fresh fresh) genuine opens
    simp only
    rcases hopened : s₂.openAggregate flow segment timer policy extras with ⟨opened, s₃⟩
    rw [hspares.next, hopened] at hopen
    rcases hopen with ⟨hkeeps, rfl | ⟨p', rfl, hframe, hholds, hcount⟩⟩
    · exact ⟨[], .ended (.closedRefusing aggregate hyields) rfl (hspares.then hkeeps)⟩
    · exact ⟨[segment], .opened (.closedOpening aggregate hyields) rfl hholds
        (hspares.then hkeeps) opens hframe hcount⟩

/-- A segment that finds an aggregate pending, whatever the verdict is. -/
theorem onPending_settles (s : Services) (flow : UInt64) (p : Pending) (segment : Segment)
    (policy : Policy) (extras : Extras) (fresh : s.Fresh) (holds : s.Holds (some p) members)
    (genuine : segment.Genuine) :
    ∃ members', (s.onPending flow p segment policy extras).Settles s (some p) segment
      members members' := by
  rcases s.onPending_cases flow p segment policy extras with
    ⟨hverdict, hturn⟩ | ⟨hverdict, hturn⟩ | ⟨_, _, s', hframes, _, _, ⟨hopens, hturn⟩ | ⟨_, hturn⟩⟩
  all_goals rw [hturn]
  · exact merge_settles s flow p segment policy holds genuine hverdict
  · exact mergeThenClose_settles s flow p segment policy holds genuine hverdict
  · rcases closeThenOpen_settles s' flow p segment policy extras (fresh.of_frames_eq hframes)
      (holds.of_frames_eq hframes) genuine hopens with ⟨members', h⟩
    exact ⟨members', h.of_frames_eq hframes⟩
  · rcases closeThenPass_settles s' flow p segment policy (fresh.of_frames_eq hframes)
      (holds.of_frames_eq hframes) with ⟨members', h⟩
    exact ⟨members', h.of_frames_eq hframes⟩

end Services

end ReceiveOffload
