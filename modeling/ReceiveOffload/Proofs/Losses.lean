import ReceiveOffload.Proofs.Dossiers

/-!
# What Closing Loses

An aggregate is read again before it is sealed, since nothing that was kept of its first
segment is trusted then. Reading cannot fail there. What is read of a frame lies before
the end of its datagram, and octets that were put behind it do not get into the way; all
that can be told of them is that they are there, which makes the frame a padded one. So
the frame of a pending aggregate is read as its first segment was, and it is never too
long for the length that sealing writes.

What is left is one way to lose an aggregate by closing it: its frame is not in storage
any more. That is noticed with its cause, and it is the only cause that ever is. A run
under trial can be told to keep frames back, and a run that is left alone with its storage
never loses an aggregate in this way at all.

Closing happens in the middle of calls as well, to aggregates that were just extended. So
what is noticed is followed through every part of a call, which adds to the notices and
takes none away.

## Main definitions

* `Notice.loss?`: The cause for which an aggregate was lost when it was closed.
* `Services.Tells`: Notices were added, and no loss among them for another cause than a
  frame that was kept back.
* `World.Closable`: Whatever is pending can be closed.

## Theorems

* `Headers.decode_append`: A frame that has grown is read as before.
* `Services.closeAggregate_eq_none_iff`: When closing loses an aggregate.
* `Services.onIdle_tells`, `Services.onPending_tells`, `Services.closeAggregate_tells`: What
  parts of a call notice.
* `pending_closable`: In every run, whatever is pending can be closed.
-/

namespace ReceiveOffload

namespace Headers

/-- What is read of a frame when octets have been put behind it. -/
def grown (h : Headers) (tail : Octets) : Headers :=
  { h with padded := h.padded || !tail.isEmpty }

/-- A frame that has grown is read as before, but for the padding. -/
theorem decode_append (frame : Frame) (h : Headers) (tail : Octets)
    (hdecode : decode frame = .ok h)
    (hmax : frame.octets.length + tail.length ≤ maxFrameLength) :
    decode (frame.append tail) = .ok (h.grown tail) := by
  have reads := readsFrom_of_decode frame h hdecode
  have hinside := reads.inside
  rw [decode_of_readsFrom _ _ (reads.append tail hmax), grown, reads.padded]
  congr 2
  -- The datagram ends with the longer frame only if it did so before and nothing came on.
  rcases tail with _ | ⟨octet, tail⟩
  · simp only [List.length_nil, Nat.add_zero, List.isEmpty_nil, Bool.not_true, Bool.or_false]
  · have hbeyond : h.datagramEnd.toNat ≠ frame.octets.length + (octet :: tail).length := by
      rw [List.length_cons]
      omega
    simp only [hbeyond, ne_eq, not_false_eq_true, decide_true, List.isEmpty_cons, Bool.not_false,
      Bool.or_true]

/-- A segment of which more has come is not merged any more. -/
theorem mergeable_grown (h : Headers) (tail : Octets) (hmergeable : h.mergeable = true) :
    (h.grown tail).mergeable = tail.isEmpty := by
  rcases (mergeable_iff h).mp hmergeable with ⟨hflags, hpayload, hfragment, hpadded⟩
  rw [Bool.eq_iff_iff, mergeable_iff]
  simp only [grown, hpadded, Bool.false_or, Bool.not_eq_eq_eq_not, Bool.not_false]
  exact ⟨fun h => h.2.2.2, fun h => ⟨hflags, hpayload, hfragment, h⟩⟩

end Headers

/-- The cause for which an aggregate was lost when it was closed. -/
def Notice.loss? : Notice → Option Failure
  | .aggregateDropped _ cause => some cause
  | _ => none

namespace Services

variable {s t u : Services} {p : Pending} {members : List Segment}

/-- Notices were added, and if there is a loss among them, a frame was missing and taking
    frames out was going to be refused. -/
structure Tells (s t : Services) : Prop where
  notices : ∃ told, t.notices = s.notices ++ told ∧ ∀ notice ∈ told, ∀ cause ∈ notice.loss?,
    cause = .malformed .missingAggregate ∧ ¬ s.SparesTakes
  /-- Refusals are used up and never added. -/
  spares : s.SparesTakes → t.SparesTakes

/-- A call that does nothing tells nothing. -/
theorem Tells.refl (s : Services) : s.Tells s :=
  ⟨⟨[], (List.append_nil _).symm, fun _ h => absurd h List.not_mem_nil⟩, id⟩

/-- What comes first tells what it tells, and uses up refusals that come after it no
    more. -/
theorem Tells.trans (h : s.Tells t) (h' : t.Tells u) : s.Tells u := by
  rcases h with ⟨⟨told, hnotices, htold⟩, hspares⟩
  rcases h' with ⟨⟨told', hnotices', htold'⟩, hspares'⟩
  refine ⟨⟨told ++ told', by rw [hnotices', hnotices, List.append_assoc], ?_⟩,
    fun h => hspares' (hspares h)⟩
  intro notice hnotice cause hcause
  rcases List.mem_append.mp hnotice with hold | hnew
  · exact htold notice hold cause hcause
  · rcases htold' notice hnew cause hcause with ⟨hmissing, hrefused⟩
    exact ⟨hmissing, fun h => hrefused (hspares h)⟩

/-- Where nothing is noticed and storage is going to refuse the same, nothing is told. -/
theorem Tells.silent (hnotices : t.notices = s.notices)
    (houtages : t.frames.outages.take = s.frames.outages.take) : s.Tells t :=
  ⟨⟨[], by rw [hnotices, List.append_nil], fun _ h => absurd h List.not_mem_nil⟩,
    fun h => houtages.trans h⟩

/-- One notice more. -/
theorem Tells.noted (h : s.Tells t) (notice : Notice) (hnotices : u.notices = t.notices ++ [notice])
    (houtages : u.frames.outages.take = t.frames.outages.take)
    (hloss : ∀ cause ∈ notice.loss?,
      cause = .malformed .missingAggregate ∧ ¬ t.SparesTakes) : s.Tells u := by
  refine h.trans ⟨⟨[notice], hnotices, fun n hn => ?_⟩, fun h => houtages.trans h⟩
  rw [List.mem_singleton] at hn
  exact hn ▸ hloss

theorem storeFrame_tells (s : Services) (frame : Frame) : s.Tells (s.storeFrame frame).2 := by
  rcases s.storeFrame_cases frame with ⟨outages, htake, ⟨cause, h⟩ | h⟩
  all_goals
    rw [h]
    exact .silent rfl htake

theorem extendFrame_tells (s : Services) (id : FrameId) (tail : Frame) (trim : Nat) :
    s.Tells (s.extendFrame id tail trim).2 := by
  rcases s.extendFrame_cases id tail trim with ⟨outages, htake, ⟨cause, h⟩ | ⟨frame, _, h⟩⟩
  all_goals
    rw [h]
    exact .silent rfl htake

/-- Storage itself tells nothing. -/
theorem takeFrame_tells (s : Services) (id : FrameId) : s.Tells (s.takeFrame id).2 := by
  refine ⟨⟨[], ?_, fun _ h => absurd h List.not_mem_nil⟩, fun h => ?_⟩
  · rcases s.takeFrame_cases id with ⟨outages, h | h⟩
    all_goals rw [h, List.append_nil]
  · rw [s.takeFrame_eq id h]
    exact h

/-- Closing loses an aggregate that was merged of its members exactly if storage does not
    give its frame out. -/
theorem closeAggregate_eq_none_iff (s : Services) (p : Pending) (holds : s.Holds (some p) members) :
    (s.closeAggregate p).1 = none ↔ (s.takeFrame p.frame).1 = none := by
  rcases holds with ⟨first, rest, stored, rfl, hstored, m⟩
  rcases m.represents with ⟨aggregate, hsealed, _⟩
  rcases s.takeFrame_cases p.frame with ⟨outages, htake | htake⟩
  · simp only [closeAggregate, htake]
  · simp only [closeAggregate, htake, hstored, hsealed, reduceCtorEq]

/-- A loss is noticed, with the number of segments that are lost. -/
theorem closeAggregate_noted (s : Services) (p : Pending) (htake : (s.takeFrame p.frame).1 = none) :
    .aggregateDropped p.segments (.malformed .missingAggregate)
      ∈ (s.closeAggregate p).2.notices := by
  rcases htaken : s.takeFrame p.frame with ⟨frame, s₁⟩
  rw [htaken] at htake
  cases htake
  simp only [closeAggregate, htaken]
  exact List.mem_append_right _ List.mem_cons_self

/-- Closing tells of a loss for the one cause that there is. -/
theorem closeAggregate_tells (s : Services) (p : Pending) (holds : s.Holds (some p) members) :
    s.Tells (s.closeAggregate p).2 := by
  rcases holds with ⟨first, rest, stored, rfl, hstored, m⟩
  rcases m.represents with ⟨aggregate, hsealed, _⟩
  have htells := s.takeFrame_tells p.frame
  rcases s.takeFrame_cases p.frame with ⟨outages, htake | htake⟩
  · -- The frame is stored, so it would have been given out if nothing was refused.
    have hrefused : ¬ s.SparesTakes := by
      intro hspares
      rw [s.takeFrame_eq p.frame hspares, hstored, Prod.mk.injEq] at htake
      cases htake.1
    -- So a loss is told of, with the one cause there is.
    simp only [closeAggregate, htake]
    refine ⟨⟨[_], rfl, fun notice hnotice cause hcause => ?_⟩, fun h => absurd h hrefused⟩
    rw [List.mem_singleton] at hnotice
    rw [hnotice, Notice.loss?, Option.mem_some_iff] at hcause
    exact ⟨hcause.symm, hrefused⟩
  -- A frame that was given out can be sealed.
  · rw [htake] at htells
    simp only [closeAggregate, htake, hstored, hsealed]
    exact htells.trans (.silent rfl rfl)

theorem logSize_tells (s : Services) (p : Pending) (h : Headers) : s.Tells (s.logSize p h).2 := by
  rw [logSize_eq]
  exact .silent rfl rfl

/-- A frame that is not stored is told of, but it is no loss of an aggregate. -/
theorem openAggregate_tells (s : Services) (flow : UInt64) (segment : Segment) (timer : TimerId)
    (policy : Policy) (extras : Extras) :
    s.Tells (s.openAggregate flow segment timer policy extras).2 := by
  have hstore := s.storeFrame_tells segment.frame
  unfold openAggregate
  rcases hstored : s.storeFrame segment.frame with ⟨cause | frame, s₁⟩
  all_goals rw [hstored] at hstore
  · exact hstore.noted (.segmentDropped flow cause) rfl rfl nofun
  · exact (hstore.trans (s₁.logSize_tells _ _)).noted (.aggregationStarted flow segment.headers.seq)
      rfl rfl nofun

/-- What cannot be appended is told of by whoever wanted it appended. -/
theorem appendSegment_tells (s : Services) (p : Pending) (segment : Segment) :
    s.Tells (s.appendSegment p segment).2 := by
  have hextend := s.extendFrame_tells p.frame segment.frame segment.headers.length
  unfold appendSegment
  rcases hextended : s.extendFrame p.frame segment.frame segment.headers.length with
    ⟨cause | length, s₁⟩
  all_goals rw [hextended] at hextend
  · exact hextend
  · exact (hextend.trans (s₁.logSize_tells _ _)).noted (.segmentMerged _ _) rfl rfl nofun

/-- An aggregate that is dropped with a segment was not lost by closing it. -/
theorem Tells.abandoned (h : s.Tells t) (p : Pending) : s.Tells (t.abandon p) :=
  h.noted (.aggregateDiscarded p.segments) rfl rfl nofun

theorem renewTimer_tells (s : Services) (flow : UInt64) (timer : TimerId) (policy : Policy) :
    s.Tells (s.renewTimer flow timer policy).2 := by
  unfold renewTimer
  rcases hrestarted : s.restartTimer timer with ⟨cause | _, s₁⟩
  all_goals
    have hrestart : s.Tells s₁ := .silent (congrArg (fun r => r.2.notices) hrestarted.symm)
      (congrArg (fun r => r.2.frames.outages.take) hrestarted.symm)
  · exact hrestart.noted (.timerReplaced flow cause) rfl rfl nofun
  · exact hrestart

theorem relay_tells (s : Services) (frame : Frame) : s.Tells (s.relay frame).2 := by
  have hstore := s.storeFrame_tells frame
  unfold relay
  rcases hstored : s.storeFrame frame with ⟨cause | id, s₁⟩
  all_goals rw [hstored] at hstore
  · exact hstore
  · have htake := s₁.takeFrame_tells id
    simp only
    rcases htaken : s₁.takeFrame id with ⟨_ | relayed, s₂⟩
    all_goals
      rw [htaken] at htake
      exact hstore.trans htake

/-- Where nothing is pending, nothing can be lost. -/
theorem onIdle_tells (s : Services) (flow : UInt64) (segment : Segment) (policy : Policy)
    (extras : Extras) : s.Tells (s.onIdle flow segment policy extras).services := by
  unfold onIdle
  by_cases hopens : segment.canOpen policy = true
  case neg =>
    rw [if_neg hopens]
    exact (Tells.refl s).noted (.passedThrough flow) rfl rfl nofun
  rw [if_pos hopens]
  rcases harmed : s.armTimer (policy.timerSetup flow) with ⟨cause | timer, s₁⟩
  all_goals
    have harm : s.Tells s₁ := .silent (congrArg (fun r => r.2.notices) harmed.symm)
      (congrArg (fun r => r.2.frames.outages.take) harmed.symm)
  · exact harm.noted (.flushedSynchronously flow cause) rfl rfl nofun
  · have hopen := s₁.openAggregate_tells flow segment timer policy extras
    simp only
    rcases hopened : s₁.openAggregate flow segment timer policy extras with ⟨_ | p, s₂⟩
    all_goals
      rw [hopened] at hopen
      exact harm.trans hopen

/-- An aggregate that is given up with a segment is not one that could not be closed. -/
theorem merge_tells (s : Services) (flow : UInt64) (p : Pending) (segment : Segment) :
    s.Tells (s.merge flow p segment).services := by
  have happend := s.appendSegment_tells p segment
  unfold merge
  rcases hresult : s.appendSegment p segment with ⟨cause | p', s₁⟩
  all_goals rw [hresult] at happend
  · exact (happend.noted (u := s₁.note (.appendFailed flow cause)) _ rfl rfl nofun).abandoned p
  · exact happend

/-- What is closed has just been extended, so it is held with one member more. -/
theorem mergeThenClose_tells (s : Services) (flow : UInt64) (p : Pending) (segment : Segment)
    (policy : Policy) (holds : s.Holds (some p) members) (genuine : segment.Genuine)
    (hverdict : p.verdict segment policy = .mergeThenClose) :
    s.Tells (s.mergeThenClose flow p segment).services := by
  have happend := (s.releaseTimer p.timer).appendSegment_tells p segment
  have hspares := ((s.releaseTimer p.timer).appendSegment_spares p segment policy holds genuine
    (Or.inr hverdict)).2
  have hreleased : s.Tells (s.releaseTimer p.timer) := .silent rfl rfl
  unfold mergeThenClose
  rcases hresult : (s.releaseTimer p.timer).appendSegment p segment with ⟨cause | p', s₁⟩
  all_goals rw [hresult] at happend hspares
  · exact ((hreleased.trans happend).noted (u := s₁.note (.closingAppendFailed flow cause)) _ rfl
      rfl nofun).abandoned p
  · rcases hspares with ⟨_, herror⟩ | ⟨p'', hsome, _, hholds⟩
    · cases herror
    -- What was appended to is still stored, so closing it is as closing any other.
    · cases hsome
      exact (hreleased.trans happend).trans (s₁.closeAggregate_tells p' hholds)

theorem closeThenPass_tells (s : Services) (flow : UInt64) (p : Pending) (segment : Segment)
    (policy : Policy) (holds : s.Holds (some p) members) :
    s.Tells (s.closeThenPass flow p segment policy).services := by
  have hreleased : s.Tells (s.releaseTimer p.timer) := .silent rfl rfl
  have hclosed := hreleased.trans ((s.releaseTimer p.timer).closeAggregate_tells p holds)
  unfold closeThenPass
  rcases hresult : (s.releaseTimer p.timer).closeAggregate p with ⟨aggregate, s₁⟩
  rw [hresult] at hclosed
  have hrelay := s₁.relay_tells segment.frame
  simp only
  rcases hrelayed : s₁.relay segment.frame with ⟨cause | relayed, s₂⟩
  all_goals rw [hrelayed] at hrelay
  · exact (hclosed.trans hrelay).noted (.closingSegmentDropped flow cause) rfl rfl nofun
  · exact hclosed.trans hrelay

/-- Whatever becomes of the next aggregate, closing the one before has told what it has
    to tell. -/
theorem closeThenOpen_tells (s : Services) (flow : UInt64) (p : Pending) (segment : Segment)
    (policy : Policy) (extras : Extras) (holds : s.Holds (some p) members) :
    s.Tells (s.closeThenOpen flow p segment policy extras).services := by
  have hclose := s.closeAggregate_tells p holds
  unfold closeThenOpen
  rcases hresult : s.closeAggregate p with ⟨aggregate, s₁⟩
  rw [hresult] at hclose
  have hrenew := s₁.renewTimer_tells flow p.timer policy
  simp only
  rcases hrenewed : s₁.renewTimer flow p.timer policy with ⟨cause | timer, s₂⟩
  all_goals rw [hrenewed] at hrenew
  · exact (hclose.trans hrenew).noted (.flushedSynchronously flow cause) rfl rfl nofun
  · have hopen := s₂.openAggregate_tells flow segment timer policy extras
    simp only
    rcases hopened : s₂.openAggregate flow segment timer policy extras with ⟨_ | next, s₃⟩
    all_goals
      rw [hopened] at hopen
      exact (hclose.trans hrenew).trans hopen

theorem closeAround_tells (s : Services) (flow : UInt64) (p : Pending) (segment : Segment)
    (policy : Policy) (extras : Extras) (holds : s.Holds (some p) members) :
    s.Tells (s.closeAround flow p segment policy extras).services := by
  unfold closeAround
  split
  · exact s.closeThenOpen_tells flow p segment policy extras holds
  · exact s.closeThenPass_tells flow p segment policy holds

/-- A segment that finds an aggregate loses it only if storage keeps its frame back. -/
theorem onPending_tells (s : Services) (flow : UInt64) (p : Pending) (segment : Segment)
    (policy : Policy) (extras : Extras) (holds : s.Holds (some p) members)
    (genuine : segment.Genuine) :
    s.Tells (s.onPending flow p segment policy extras).services := by
  -- The three verdicts that close the aggregate have a notice of their own before.
  have hnoted : ∀ (notice : Notice) (t : Services), t.notices = s.notices ++ [notice] →
      t.frames = s.frames → (∀ cause ∈ notice.loss?,
        cause = .malformed .missingAggregate ∧ ¬ s.SparesTakes) →
      s.Tells (t.closeAround flow p segment policy extras).services := by
    intro notice t hnotices hframes hloss
    exact ((Tells.refl s).noted notice hnotices (congrArg (fun f => f.outages.take) hframes)
      hloss).trans (t.closeAround_tells flow p segment policy extras (holds.of_frames_eq hframes))
  unfold onPending
  rcases hverdict : p.verdict segment policy with _ | _ | _ | _ | size
  · exact s.merge_tells flow p segment
  · exact s.mergeThenClose_tells flow p segment policy holds genuine hverdict
  · exact hnoted (.unexpectedSeq flow p.nextSeq segment.headers.seq) _ rfl rfl nofun
  · exact hnoted (.incompatible flow) _ rfl rfl nofun
  · exact hnoted (.sizeExceeded flow size policy.sizeLimit) _ rfl rfl nofun

end Services

section Step

variable {d : Dossier}

/-- Closing what is pending, with notices and counts before and after. -/
theorem Dossier.tells_close (kept : d.roster.Kept) (flow : UInt64) (p : Pending)
    (hp : d.world.engine.pending flow = some p) (s : Services)
    (hframes : s.frames = d.world.engine.services.frames)
    (htells : d.world.engine.services.Tells s) :
    d.world.engine.services.Tells (s.closeAggregate p).2 := by
  have hheld := kept.held flow
  rw [show d.roster.world.engine.pending flow = _ from hp] at hheld
  exact htells.trans (s.closeAggregate_tells p (hheld.of_frames_eq hframes))

/-- A segment that is rejected is told of, and touches nothing. -/
theorem Dossier.tells_offer (kept : d.roster.Kept) (flow : UInt64) (frame : Frame)
    (policy : Policy) (extras : Extras) :
    d.world.engine.services.Tells (d.world.engine.offer flow frame policy extras).2.services := by
  rcases hsegment : frame.segment? with _ | segment
  · rcases (d.world.engine.offer_refused flow frame policy extras hsegment).2 with
      heq | ⟨cause, heq⟩
    · rw [heq]
      exact .refl _
    · rw [heq]
      exact (Services.Tells.refl _).noted (.frameRejected flow cause) rfl rfl nofun
  · have hheld := kept.held flow
    have hgenuine := ((Segment.ofFrame_eq_ok_iff frame segment).mp
      ((frame.segment?_eq_some_iff segment).mp hsegment).2).2
    rw [(d.world.engine.offer_accepted flow frame policy extras segment hsegment).2.2]
    unfold Engine.turn
    rcases hp : d.world.engine.pending flow with _ | p
    all_goals rw [show d.roster.world.engine.pending flow = _ from hp] at hheld
    · exact Services.onIdle_tells _ flow segment policy extras
    · exact Services.onPending_tells _ flow p segment policy extras hheld hgenuine

theorem Dossier.tells_flush (kept : d.roster.Kept) (flow : UInt64) :
    d.world.engine.services.Tells (d.world.engine.flush flow).2.services := by
  rcases d.world.engine.flush_cases flow with ⟨_, _, _, hservices⟩ | ⟨p, hp, _, _, hservices⟩
  all_goals rw [hservices]
  · exact .refl _
  · refine Dossier.tells_close kept flow p hp _ ?_ ?_
    -- Whether the request is counted makes no difference.
    · split <;> rfl
    · refine (Services.Tells.refl _).noted (.explicitFlush flow p.segments) ?_ ?_ nofun
      · split <;> rfl
      · split <;> rfl

/-- A timer that runs out closes its aggregate, or is told to be late. -/
theorem Dossier.tells_expire (kept : d.roster.Kept) (expiry : Expiry) :
    d.world.engine.services.Tells (d.world.engine.expire expiry).2.services := by
  have htimedOut : d.world.engine.services.Tells (d.world.engine.timeOut expiry).2.services := by
    by_cases htimely : ∃ p, d.world.engine.pending expiry.flow = some p ∧ p.timer = expiry.handle
    · rcases htimely with ⟨p, hp, htimer⟩
      rw [(d.world.engine.timeOut_timely expiry p hp htimer).2.2]
      have hclosed : d.world.engine.services.Tells (d.world.engine.timedOut expiry p).2 :=
        Dossier.tells_close kept expiry.flow p hp _ rfl
          ((Services.Tells.refl _).noted (.timeoutFlush expiry.flow p.segments) rfl rfl nofun)
      exact hclosed.trans (.silent rfl rfl)
    · have hlate : ∀ p, d.world.engine.pending expiry.flow = some p → p.timer ≠ expiry.handle :=
        fun p hp htimer => htimely ⟨p, hp, htimer⟩
      rw [(d.world.engine.timeOut_late expiry hlate).2.2]
      exact (Services.Tells.refl _).noted (.staleTimer expiry.flow expiry.handle) rfl rfl nofun
  -- If nobody asked to be told, that is one more notice.
  rcases d.world.engine.expire_noted expiry with heq | ⟨length, heq⟩
  all_goals rw [heq]
  · exact htimedOut
  · exact htimedOut.noted (.nobodyToTell expiry.flow length) rfl rfl nofun

/-- A step of the engine adds notices to those that there are, and none of a loss unless a
    frame was kept back. -/
theorem Dossier.tells_step (kept : d.roster.Kept) (step : Step) :
    d.world.engine.services.Tells (d.world.step step).engine.services := by
  cases step with
  | offer flow frame policy extras => exact Dossier.tells_offer kept flow frame policy extras
  | flush flow => exact Dossier.tells_flush kept flow
  | advance elapsed => exact .silent rfl rfl
  | deliver index =>
      rcases hexpiry : d.world.expiries[index]? with _ | expiry
      all_goals simp only [World.step, hexpiry]
      · exact .refl _
      · exact Dossier.tells_expire kept expiry
  | refuse store extend =>
      -- This replaces what lies ahead, and never by a refusal to give frames out.
      exact ⟨⟨[], (List.append_nil _).symm, fun _ h => absurd h List.not_mem_nil⟩, fun _ => rfl⟩

end Step

/-- Whatever is pending can be closed, and nothing was lost by closing it that was not kept
    back by storage. -/
structure World.Closable (w : World) : Prop where
  /-- The frame of a pending aggregate is stored, and can be sealed. -/
  sealed : ∀ flow p, w.engine.pending flow = some p → ∃ stored aggregate,
    w.engine.services.stored? p.frame = some stored ∧
      Aggregate.ofStored stored p = .ok aggregate
  /-- Closing it loses it only if storage does not give the frame out. -/
  closed : ∀ flow p, w.engine.pending flow = some p →
    ((w.engine.services.closeAggregate p).1 = none ↔
      (w.engine.services.takeFrame p.frame).1 = none)
  /-- No aggregate is lost without a notice. -/
  noticed : ∀ flow p, w.engine.pending flow = some p →
    (w.engine.services.closeAggregate p).1 = none →
      .aggregateDropped p.segments (.malformed .missingAggregate)
        ∈ (w.engine.services.closeAggregate p).2.notices
  /-- Whatever was lost was lost for that cause. -/
  lost : ∀ notice ∈ w.engine.services.notices, ∀ cause ∈ notice.loss?,
    cause = .malformed .missingAggregate

/-- What is noticed in a run of losses, whatever storage and timers do. -/
theorem Dossier.lost_run (setup : Setup) (trials : List Trial)
    (hstores : (run setup trials).world.stores < 2 ^ 64) :
    ∀ notice ∈ (run setup trials).world.engine.services.notices, ∀ cause ∈ notice.loss?,
      cause = .malformed .missingAggregate := by
  refine run_induction_kept setup trials
    (fun d => ∀ notice ∈ d.world.engine.services.notices, ∀ cause ∈ notice.loss?,
      cause = .malformed .missingAggregate)
    hstores (fun _ h => absurd h List.not_mem_nil) ?_
  intro d trial _ hkept _ hd
  rcases trial with step | outages | timers
  · intro notice hnotice cause hcause
    rcases (tells_step hkept step).notices with ⟨told, hnotices, htold⟩
    -- Notices are only ever added to.
    rcases List.mem_append.mp (hnotices ▸ hnotice) with hold | hnew
    · exact hd notice hold cause hcause
    · exact (htold notice hnew cause hcause).1
  · exact hd
  · exact hd

/-- A run that is left alone with its storage loses nothing by closing it. -/
theorem Dossier.unlost_run (setup : Setup) (steps : List Step)
    (hstores : (run setup (steps.map .step)).world.stores < 2 ^ 64) :
    ∀ notice ∈ (run setup (steps.map .step)).world.engine.services.notices,
      notice.loss? = none := by
  refine (run_induction_kept setup (steps.map .step)
    (fun d => d.world.engine.services.SparesTakes ∧
      ∀ notice ∈ d.world.engine.services.notices, notice.loss? = none)
    hstores ⟨rfl, fun _ h => absurd h List.not_mem_nil⟩ ?_).2
  intro d trial htrial hkept _ hd
  rcases List.mem_map.mp htrial with ⟨step, _, rfl⟩
  have htells := tells_step hkept step
  refine ⟨htells.spares hd.1, fun notice hnotice => ?_⟩
  rcases htells.notices with ⟨told, hnotices, htold⟩
  rcases List.mem_append.mp (hnotices ▸ hnotice) with hold | hnew
  · exact hd.2 notice hold
  -- A loss would mean that a refusal was still to come, and there is none.
  · by_contra hloss
    rcases Option.ne_none_iff_exists'.mp hloss with ⟨cause, hcause⟩
    exact (htold notice hnew cause hcause).2 hd.1

/-- A frame that grows is read as before, with nothing but the padding to tell, and so
    closing never fails. In every run, whatever storage and timers do, the frame of a
    pending aggregate is stored and can be sealed, and an aggregate is lost only because
    storage did not give its frame out. A run that is left alone with its storage loses
    none. -/
theorem pending_closable :
    (∀ (frame : Frame) (h : Headers) (tail : Octets), Headers.decode frame = .ok h →
      h.mergeable = true → frame.length + tail.length ≤ 65535 →
      Headers.decode (frame.append tail) = .ok { h with padded := !tail.isEmpty } ∧
        Headers.mergeable { h with padded := !tail.isEmpty } = tail.isEmpty) ∧
    (∀ (setup : Setup) (trials : List Trial), (Roster.run setup trials).world.stores < 2 ^ 64 →
      (Roster.run setup trials).world.Closable) ∧
    ∀ (setup : Setup) (steps : List Step), (World.run setup steps).stores < 2 ^ 64 →
      ∀ notice ∈ (World.run setup steps).engine.services.notices, notice.loss? = none := by
  refine ⟨?_, ?_, ?_⟩
  · intro frame h tail hdecode hmergeable hlength
    have hpadded := ((Headers.mergeable_iff h).mp hmergeable).2.2.2
    have hgrown : h.grown tail = { h with padded := !tail.isEmpty } := by
      rw [Headers.grown, hpadded, Bool.false_or]
    rw [← hgrown]
    exact ⟨Headers.decode_append frame h tail hdecode
      (Nat.le_trans hlength (by decide)), h.mergeable_grown tail hmergeable⟩
  · intro setup trials hstores
    have hkept := Roster.kept_run setup trials hstores
    have hheld : ∀ flow p, (Roster.run setup trials).world.engine.pending flow = some p →
        (Roster.run setup trials).world.engine.services.Holds (some p)
          ((Roster.run setup trials).members flow) :=
      fun flow p hp => hp ▸ hkept.held flow
    constructor
    case sealed =>
      intro flow p hp
      rcases hheld flow p hp with ⟨first, rest, stored, _, hstored, m⟩
      rcases m.represents with ⟨aggregate, hsealed, _⟩
      exact ⟨stored, aggregate, hstored, hsealed⟩
    case closed =>
      intro flow p hp
      exact Services.closeAggregate_eq_none_iff _ p (hheld flow p hp)
    case noticed =>
      intro flow p hp hlost
      exact Services.closeAggregate_noted _ p
        ((Services.closeAggregate_eq_none_iff _ p (hheld flow p hp)).mp hlost)
    case lost =>
      have hworld : (Dossier.run setup trials).world = (Roster.run setup trials).world :=
        congrArg Roster.world (Dossier.roster_run setup trials)
      rw [← hworld] at hstores ⊢
      exact Dossier.lost_run setup trials hstores
  · intro setup steps hstores
    have hworld : (Dossier.run setup (steps.map .step)).world = World.run setup steps :=
      (congrArg Roster.world (Dossier.roster_run setup (steps.map .step))).trans
        (Roster.world_run setup steps)
    rw [← hworld] at hstores ⊢
    exact Dossier.unlost_run setup steps hstores

/-- Two segments wait, and their frame is kept back when they are flushed. Another flow
    still has its segment pending. -/
def keptBack : List Trial := [
  .step (.offer 7 (plainFrame 1 [1]) plainPolicy {}),
  .step (.offer 7 (plainFrame 2 [2]) plainPolicy {}),
  .step (.offer 8 (plainFrame 1 [9]) plainPolicy {}),
  .refuse { take := [0] },
  .step (.flush 7)
]

/-- The first two of these segments are merged and handed out again. -/
def givenBack : List Step := [
  .offer 7 (plainFrame 1 [1]) plainPolicy {},
  .offer 7 (plainFrame 2 [2]) plainPolicy {},
  .flush 7
]

theorem pending_closable_keptBack :
    (∃ h, Headers.decode (plainFrame 1 [1]) = .ok h ∧
      Headers.decode ((plainFrame 1 [1]).append [2, 3]) = .ok { h with padded := true }) ∧
    (((Roster.run {} keptBack).world.engine.pending 8).isSome = true ∧
      .aggregateDropped 2 (.malformed .missingAggregate)
        ∈ (Roster.run {} keptBack).world.engine.services.notices ∧
      (Roster.run {} keptBack).world.Closable) ∧
    ∀ notice ∈ (World.run {} givenBack).engine.services.notices, notice.loss? = none := by
  have hdecode : ∃ h, Headers.decode (plainFrame 1 [1]) = .ok h ∧ h.mergeable = true := by
    cbv
    exact ⟨_, rfl, rfl⟩
  rcases hdecode with ⟨h, hdecode, hmergeable⟩
  rcases pending_closable with ⟨hgrown, hclosable, hunlost⟩
  exact ⟨⟨h, hdecode, (hgrown (plainFrame 1 [1]) h [2, 3] hdecode hmergeable (by decide)).1⟩,
    ⟨by decide +kernel, by decide +kernel, hclosable {} keptBack (by decide +kernel)⟩,
    hunlost {} givenBack (by decide +kernel)⟩

end ReceiveOffload
