import ReceiveOffload.Proofs.Books
import ReceiveOffload.Proofs.Trials

/-!
# What a Disposition Announces

A caller that hands frames on does so when the disposition of a call tells it
that there are any. So the disposition has to tell, and it must not tell of
frames that are not there.

Most calls keep to that whatever storage and timers do. A disposition is put
together from what is said of the closed aggregate and of the arriving segment,
and each part announces what it hands out. There is one part that does not: a
segment that is passed on behind the aggregate which it closes says nothing of
its own, since the aggregate is announced already. Where that aggregate is lost
on the way, its loss is all that is said, and the segment is handed out
unannounced. Without a timer for the next aggregate the segment is handed out
in just the same way, and there it is announced.

No invariant is needed for any of this. What is said follows from the results
of the services alone, so the theorem is about every engine there is. An
invariant is what excludes the exception: while storage gives out what it holds,
no aggregate is lost by closing it.

## Main definitions

* `Output.Announces`: The disposition says that there are frames if there are.
* `Engine.LosesAhead`: The aggregate is lost and the segment behind it is not.

## Theorems

* `announces_iff`: A call announces what it hands out, unless it loses an
  aggregate ahead of a segment.
* `not_announces_withheld`: That can happen.
* `World.announces_run`: It cannot where taking a frame out is never refused.
-/

namespace ReceiveOffload

/-- The disposition says that there are frames if and only if there are. -/
def Output.Announces (output : Output) : Prop :=
  output.disposition.hasOutput = true ↔ output.frames ≠ []

/-- The aggregate of the flow is closed ahead of a segment that cannot open the
    next one, it is lost on the way, and the segment comes back from storage. -/
def Engine.LosesAhead (engine : Engine) (flow : UInt64) (frame : Frame) (policy : Policy) : Prop :=
  ∃ p segment, engine.pending flow = some p ∧ frame.segment? = some segment ∧
    p.verdict segment policy ≠ .merge ∧ p.verdict segment policy ≠ .mergeThenClose ∧
    segment.canOpen policy = false ∧ (engine.services.closeAggregate p).1 = none ∧
    ∃ relayed, ((engine.services.closeAggregate p).2.relay segment.frame).1 = .ok relayed

namespace Output

/-- A frame that is handed back is announced by whoever says that it is to be
    handed on. -/
theorem announces_handBack (said : Disposition) (frame : Frame)
    (h : said.hasOutput = !said.badFrame) : (handBack said frame).Announces := by
  unfold Announces
  simp only [handBack, frames, h]
  by_cases hbad : said.badFrame = true <;> simp [hbad]

/-- An aggregate that was closed is announced, and one that was lost is not. -/
theorem announces_ofClosing (aggregate : Option Aggregate) (said : Disposition)
    (h : said.hasOutput = true) : (ofClosing aggregate said).Announces := by
  unfold Announces
  rcases aggregate with _ | aggregate
  · simp [ofClosing, frames, Disposition.hasOutput]
  · simp [ofClosing, frames, h]

/-- Where nothing is handed out, nothing may be announced. -/
theorem announces_nothing (said : Disposition) (h : said.hasOutput = false) :
    ({ disposition := said } : Output).Announces := by
  unfold Announces
  simp [frames, h]

/-- What is said besides makes no difference if it announces nothing. -/
theorem announces_also {output : Output} (said : Disposition) (h : output.Announces)
    (hsaid : said.hasOutput = false) (hbad : said.badFrame = false) :
    (output.also said).Announces := by
  unfold Announces at h ⊢
  have houtput : (output.also said).disposition.hasOutput = output.disposition.hasOutput := by
    unfold Disposition.hasOutput at hsaid ⊢
    simp only [Bool.or_eq_false_iff] at hsaid
    simp only [also, Disposition.union, hsaid, Bool.or_false]
  have hframes : (output.also said).frames = output.frames := by
    simp only [also, frames, Disposition.union, hbad, Bool.or_false]
  rw [houtput, hframes]
  exact h

/-- An output that is announced may have the segment in it. -/
theorem announces_withSegment {output : Output} (frame : Frame)
    (h : output.disposition.hasOutput = true) (hbad : output.disposition.badFrame = false) :
    (output.withSegment frame).Announces := by
  unfold Announces
  simp [withSegment, frames, h, hbad]

end Output

namespace Services

variable {s s' : Services}

/-- What closing gives depends on storage alone. -/
theorem closeAggregate_congr (p : Pending) (h : s'.frames = s.frames) :
    (s'.closeAggregate p).1 = (s.closeAggregate p).1 ∧
      (s'.closeAggregate p).2.frames = (s.closeAggregate p).2.frames := by
  have htake : (s'.takeFrame p.frame).1 = (s.takeFrame p.frame).1 := by
    simp only [takeFrame, h]
  have hleft : (s'.takeFrame p.frame).2.frames = (s.takeFrame p.frame).2.frames := by
    simp only [takeFrame, h]
  unfold closeAggregate
  simp only [htake]
  split <;> exact ⟨rfl, hleft⟩

/-- What comes back from storage depends on storage alone. -/
theorem relay_congr (frame : Frame) (h : s'.frames = s.frames) :
    (s'.relay frame).1 = (s.relay frame).1 := by
  unfold relay storeFrame
  rw [h]
  rcases s.frames.store frame with ⟨cause | id, depot⟩
  · rfl
  · simp only [takeFrame]
    rcases depot.take id with ⟨_ | relayed, left⟩ <;> rfl

/-- A segment on an idle flow is announced with what it has become. -/
theorem announces_onIdle (s : Services) (flow : UInt64) (segment : Segment) (policy : Policy)
    (extras : Extras) : (s.onIdle flow segment policy extras).output.Announces := by
  unfold onIdle
  split
  · rcases s.armTimer (policy.timerSetup flow) with ⟨cause | timer, s1⟩
    · exact Output.announces_handBack _ _ rfl
    · simp only
      rcases s1.openAggregate flow segment timer policy extras with ⟨_ | p, s2⟩ <;>
        exact Output.announces_nothing _ rfl
  · exact Output.announces_handBack _ _ rfl

theorem announces_merge (s : Services) (flow : UInt64) (p : Pending) (segment : Segment) :
    (s.merge flow p segment).output.Announces := by
  unfold merge
  rcases s.appendSegment p segment with ⟨cause | p', s1⟩ <;>
    exact Output.announces_nothing _ rfl

/-- An aggregate that is closed is announced. -/
theorem announces_mergeThenClose (s : Services) (flow : UInt64) (p : Pending)
    (segment : Segment) : (s.mergeThenClose flow p segment).output.Announces := by
  unfold mergeThenClose
  rcases (s.releaseTimer p.timer).appendSegment p segment with ⟨cause | p', s1⟩
  · exact Output.announces_nothing _ rfl
  · exact Output.announces_ofClosing _ _ rfl

/-- Behind a closed aggregate, an arriving segment that is not handed out says so
    or opens the next one, and one that is handed out for want of a timer is
    announced. -/
theorem announces_closeThenOpen (s : Services) (flow : UInt64) (p : Pending) (segment : Segment)
    (policy : Policy) (extras : Extras) :
    (s.closeThenOpen flow p segment policy extras).output.Announces := by
  unfold closeThenOpen
  rcases s.closeAggregate p with ⟨aggregate, s1⟩
  have hclosed := Output.announces_ofClosing aggregate { flushNow := true } rfl
  simp only
  rcases s1.renewTimer flow p.timer policy with ⟨cause | timer, s2⟩
  · refine Output.announces_withSegment segment.frame ?_ ?_
    · simp [Output.also, Disposition.union, Disposition.hasOutput]
    · rcases aggregate with _ | aggregate <;> rfl
  · simp only
    rcases s2.openAggregate flow segment timer policy extras with ⟨_ | next, s3⟩ <;>
      exact Output.announces_also _ hclosed rfl rfl

/-- A segment that is passed on behind the aggregate is announced along with it,
    and so it is not where the aggregate was lost. -/
theorem announces_closeThenPass_iff (s : Services) (flow : UInt64) (p : Pending)
    (segment : Segment) (policy : Policy) :
    (s.closeThenPass flow p segment policy).output.Announces ↔
      ¬ ((s.closeAggregate p).1 = none ∧
        ∃ relayed, ((s.closeAggregate p).2.relay segment.frame).1 = .ok relayed) := by
  -- The timer is released first, of which storage knows nothing.
  have hreleased : (s.releaseTimer p.timer).frames = s.frames := rfl
  rcases closeAggregate_congr p hreleased with ⟨haggregate, hframes⟩
  rw [← haggregate, ← relay_congr segment.frame hframes]
  unfold closeThenPass
  rcases (s.releaseTimer p.timer).closeAggregate p with ⟨aggregate, s1⟩
  simp only
  rcases s1.relay segment.frame with ⟨cause | relayed, s2⟩
  · simp only [reduceCtorEq, exists_false, and_false, not_false_eq_true, iff_true]
    exact Output.announces_also _ (Output.announces_ofClosing aggregate _ rfl) rfl rfl
  · rcases aggregate with _ | aggregate
    · simp [Output.Announces, Output.withSegment, Output.ofClosing, Output.frames,
        Disposition.hasOutput]
    · simp [Output.Announces, Output.withSegment, Output.ofClosing, Output.frames,
        Disposition.hasOutput]

theorem aggregate_closeThenOpen (s : Services) (flow : UInt64) (p : Pending) (segment : Segment)
    (policy : Policy) (extras : Extras) :
    (s.closeThenOpen flow p segment policy extras).output.aggregate = (s.closeAggregate p).1 := by
  unfold closeThenOpen
  rcases s.closeAggregate p with ⟨aggregate, s1⟩
  simp only
  rcases s1.renewTimer flow p.timer policy with ⟨cause | timer, s2⟩
  · rfl
  · simp only
    rcases s2.openAggregate flow segment timer policy extras with ⟨_ | next, s3⟩ <;> rfl

theorem aggregate_closeThenPass (s : Services) (flow : UInt64) (p : Pending) (segment : Segment)
    (policy : Policy) :
    (s.closeThenPass flow p segment policy).output.aggregate = (s.closeAggregate p).1 := by
  have hreleased : (s.releaseTimer p.timer).frames = s.frames := rfl
  rw [← (closeAggregate_congr p hreleased).1]
  unfold closeThenPass
  rcases (s.releaseTimer p.timer).closeAggregate p with ⟨aggregate, s1⟩
  simp only
  rcases s1.relay segment.frame with ⟨cause | relayed, s2⟩ <;> rfl

/-- Frames are announced, unless the aggregate is lost and the segment passed on behind
    it. -/
theorem announces_onPending_iff (s : Services) (flow : UInt64) (p : Pending) (segment : Segment)
    (policy : Policy) (extras : Extras) :
    (s.onPending flow p segment policy extras).output.Announces ↔
      ¬ (p.verdict segment policy ≠ .merge ∧ p.verdict segment policy ≠ .mergeThenClose ∧
        segment.canOpen policy = false ∧ (s.closeAggregate p).1 = none ∧
        ∃ relayed, ((s.closeAggregate p).2.relay segment.frame).1 = .ok relayed) := by
  rcases s.onPending_cases flow p segment policy extras with
    ⟨hverdict, hturn⟩ | ⟨hverdict, hturn⟩ |
      ⟨hmerge, hlast, s', hframes, _, _, ⟨hopens, hturn⟩ | ⟨hopens, hturn⟩⟩
  all_goals rw [hturn]
  · simp only [hverdict, ne_eq, not_true_eq_false, false_and, not_false_eq_true, iff_true]
    exact announces_merge s flow p segment
  · simp only [hverdict, ne_eq, not_true_eq_false, false_and, and_false, not_false_eq_true,
      iff_true]
    exact announces_mergeThenClose s flow p segment
  · simp only [hopens, Bool.true_eq_false, false_and, and_false, not_false_eq_true, iff_true]
    exact announces_closeThenOpen s' flow p segment policy extras
  · rcases closeAggregate_congr p hframes with ⟨haggregate, hleft⟩
    rw [announces_closeThenPass_iff, haggregate, relay_congr segment.frame hleft]
    simp only [hmerge, hlast, hopens, ne_eq, not_false_eq_true, true_and]

end Services

theorem Engine.announces_flush (engine : Engine) (flow : UInt64) :
    (engine.flush flow).1.Announces := by
  rcases engine.flush_cases flow with ⟨_, houtput, _⟩ | ⟨p, _, houtput, _⟩
  · rw [houtput]
    exact Output.announces_nothing _ rfl
  · rw [houtput]
    exact Output.announces_ofClosing _ _ rfl

theorem Engine.announces_offer_iff (engine : Engine) (flow : UInt64) (frame : Frame)
    (policy : Policy) (extras : Extras) :
    (engine.offer flow frame policy extras).1.Announces ↔
      ¬ engine.LosesAhead flow frame policy := by
  unfold LosesAhead
  rcases hsegment : frame.segment? with _ | segment
  · rw [(engine.offer_refused flow frame policy extras hsegment).1]
    simp only [reduceCtorEq, false_and, and_false, exists_false, not_false_eq_true, iff_true]
    exact Output.announces_handBack _ _ rfl
  · rw [(engine.offer_accepted flow frame policy extras segment hsegment).1]
    unfold turn
    rcases hpending : engine.pending flow with _ | p
    · simp only [reduceCtorEq, false_and, exists_false, not_false_eq_true, iff_true]
      exact Services.announces_onIdle _ _ _ _ _
    · simp only [Option.some.injEq, exists_eq_left', exists_and_left]
      exact Services.announces_onPending_iff _ _ _ _ _ _

/-- Flushing announces what it hands out, and so does offering a segment unless
    the aggregate ahead of it is lost and the segment is not. -/
theorem announces_iff (engine : Engine) (flow : UInt64) :
    (engine.flush flow).1.Announces ∧
      ∀ frame policy extras, (engine.offer flow frame policy extras).1.Announces ↔
        ¬ engine.LosesAhead flow frame policy :=
  ⟨engine.announces_flush flow, engine.announces_offer_iff flow⟩

/-- An aggregate is pending, and its frame cannot be taken out any more. -/
def withheld : List Trial := [
  .step (.offer 7 (plainFrame 1 [1]) plainPolicy {}),
  .refuse { take := [0] }
]

/-- Then an acknowledgement without data arrives. It comes back from storage, and
    only the loss of the aggregate is reported. -/
theorem not_announces_withheld :
    ¬ ((Roster.run {} withheld).world.engine.offer 7 (plainFrame 9 []) plainPolicy {}).1.Announces
      := by
  unfold Output.Announces
  decide +kernel

/-- In a run, where storage gives out what it holds, every call announces what it
    hands out. -/
theorem World.announces_run (setup : Setup) (steps : List Step) (flow : UInt64)
    (hstores : (run setup steps).stores < 2 ^ 64) :
    ((run setup steps).engine.flush flow).1.Announces ∧
      ∀ frame policy extras,
        ((run setup steps).engine.offer flow frame policy extras).1.Announces := by
  have hbacked := backed_run setup steps hstores
  refine ⟨Engine.announces_flush _ flow, fun frame policy extras => ?_⟩
  rw [Engine.announces_offer_iff]
  rintro ⟨p, segment, hpending, _, _, _, _, hlost, _⟩
  -- Its segments are stored, so the aggregate is not lost by closing it.
  rcases hbacked.held flow with ⟨members, hholds, _⟩
  rw [hpending] at hholds
  rcases Services.closeAggregate_spec _ p hbacked.ready hholds with ⟨aggregate, hclosed, _⟩
  rw [hlost] at hclosed
  cases hclosed

end ReceiveOffload
