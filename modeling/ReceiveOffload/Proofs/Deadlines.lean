import ReceiveOffload.Proofs.Handover

/-!
# When the Timer of an Aggregate Starts

The time that an aggregate may stay open is counted from the call that opened
it. A timer that is taken for it starts then, and so does one that is passed on
from the aggregate before it, since it is started over. While the aggregate
grows its timer is left alone, so that a flow that never pauses does not put off
its own deadline.

A caller can tell the two apart. A call that opened an aggregate says so, and one
that does not say so has left all timers as they were, unless nothing is pending
after it.

## Main definitions

* `Turn.Starts`: A call that says that it opened an aggregate started a timer.

## Theorems

* `Services.renewTimer_unspent`: A timer that is passed on starts over.
* `Services.onIdle_timer`, `Services.closeThenOpen_timer`: Where the timer of an
  aggregate comes from that a call opened.
* `Engine.offer_starts`: A segment that is offered.
-/

namespace ReceiveOffload

/-- Closing an aggregate says nothing of the next one. -/
theorem Output.started_ofClosing (aggregate : Option Aggregate) :
    (Output.ofClosing aggregate { flushNow := true }).disposition.newAggregationStarted
      = false := by
  rcases aggregate with _ | _ <;> rfl

/-- The timer of an aggregate that a call says it opened has all of its time
    ahead. An aggregate that goes on keeps its timer, and the call touched none. -/
structure Turn.Starts (turn : Turn) (s : Services) (pending : Option Pending) : Prop where
  opened : turn.output.disposition.newAggregationStarted = true →
    ∃ p, turn.flow = some p ∧ turn.services.timers.Unspent p.timer
  kept : turn.output.disposition.newAggregationStarted = false → ∀ p, turn.flow = some p →
    pending.map Pending.timer = some p.timer ∧ turn.services.timers = s.timers

namespace Turn.Starts

variable {turn : Turn} {s : Services} {pending : Option Pending}

/-- A call that leaves nothing pending started nothing. -/
theorem ended (hflow : turn.flow = none)
    (hsaid : turn.output.disposition.newAggregationStarted = false) :
    turn.Starts s pending where
  opened := by
    intro hstarted
    rw [hsaid] at hstarted
    cases hstarted
  kept := by
    intro _ p hp
    rw [hflow] at hp
    cases hp

theorem opening {p : Pending} (hflow : turn.flow = some p)
    (hsaid : turn.output.disposition.newAggregationStarted = true)
    (unspent : turn.services.timers.Unspent p.timer) : turn.Starts s pending where
  opened := fun _ => ⟨p, hflow, unspent⟩
  kept := by
    intro hstarted
    rw [hsaid] at hstarted
    cases hstarted

end Turn.Starts

namespace Services

variable {s s' : Services}

/-- A timer that is taken has all of its time. -/
theorem armTimer_unspent {setup : TimerSetup} {timer : TimerId} (sound : s.timers.Sound)
    (h : s.armTimer setup = (.ok timer, s')) : s'.timers.Unspent timer := by
  unfold armTimer at h
  rcases s.timers.arm_cases setup sound with ⟨cause, harm⟩ | ⟨handle, timers, harm, armed⟩
  all_goals
    rw [harm] at h
    cases h
  exact armed.unspent

/-- The timer of the next aggregate starts with it, whether it is that of the last
    one or another. -/
theorem renewTimer_unspent {flow : UInt64} {timer renewed : TimerId} {policy : Policy}
    (sound : s.timers.Sound) (h : s.renewTimer flow timer policy = (.ok renewed, s')) :
    s'.timers.Unspent renewed := by
  unfold renewTimer restartTimer at h
  rcases s.timers.restart_cases timer sound with
    ⟨cause, hrestart⟩ | ⟨timers, hrestart, restarted⟩
  all_goals
    rw [hrestart] at h
    simp only at h
  · exact armTimer_unspent (sound.release timer) h
  · cases h
    exact restarted.unspent

/-- An aggregate is opened with the timer that was taken for it, and without
    another look at the timers. -/
theorem openAggregate_timer {flow : UInt64} {segment : Segment} {timer : TimerId}
    {policy : Policy} {extras : Extras} {p : Pending}
    (h : s.openAggregate flow segment timer policy extras = (some p, s')) :
    p.timer = timer ∧ s'.timers = s.timers := by
  unfold openAggregate at h
  rcases hstore : s.storeFrame segment.frame with ⟨cause | frame, s1⟩
  all_goals
    rw [hstore] at h
    simp only [Prod.mk.injEq, reduceCtorEq, false_and, Option.some.injEq] at h
  have htimers : s1.timers = s.timers := congrArg (fun r => r.2.timers) hstore.symm
  rcases h with ⟨rfl, rfl⟩
  constructor
  · exact s1.timer_logSize (.ofSegment segment timer frame policy extras) segment.headers
  · rw [timers_note, timers_count, timers_logSize, htimers]

/-- A flow without an aggregate takes a timer for the one that it opens, if it opens
    one. -/
theorem onIdle_timer (s : Services) (flow : UInt64) (segment : Segment) (policy : Policy)
    (extras : Extras) :
    ((s.onIdle flow segment policy extras).flow = none ∧
      (s.onIdle flow segment policy extras).output.disposition.newAggregationStarted = false) ∨
    ∃ p s', (s.onIdle flow segment policy extras).flow = some p ∧
      (s.onIdle flow segment policy extras).output.disposition.newAggregationStarted = true ∧
      s.armTimer (policy.timerSetup flow) = (.ok p.timer, s') ∧
      (s.onIdle flow segment policy extras).services.timers = s'.timers := by
  unfold onIdle
  by_cases hopens : segment.canOpen policy = true
  case neg =>
    rw [if_neg hopens]
    exact Or.inl ⟨rfl, rfl⟩
  rw [if_pos hopens]
  rcases s.armTimer (policy.timerSetup flow) with ⟨cause | timer, s1⟩
  · exact Or.inl ⟨rfl, rfl⟩
  simp only
  rcases hopen : s1.openAggregate flow segment timer policy extras with ⟨_ | p, s2⟩
  · exact Or.inl ⟨rfl, rfl⟩
  · rcases openAggregate_timer hopen with ⟨rfl, htimers⟩
    exact Or.inr ⟨p, s1, rfl, rfl, rfl, htimers⟩

/-- The timer of an aggregate is renewed for the next one, if there is a next
    one. -/
theorem closeThenOpen_timer (s : Services) (flow : UInt64) (p : Pending) (segment : Segment)
    (policy : Policy) (extras : Extras) :
    ((s.closeThenOpen flow p segment policy extras).flow = none ∧
      (s.closeThenOpen flow p segment policy extras).output.disposition.newAggregationStarted
        = false) ∨
    ∃ next s', (s.closeThenOpen flow p segment policy extras).flow = some next ∧
      (s.closeThenOpen flow p segment policy extras).output.disposition.newAggregationStarted
        = true ∧
      (s.closeAggregate p).2.renewTimer flow p.timer policy = (.ok next.timer, s') ∧
      (s.closeThenOpen flow p segment policy extras).services.timers = s'.timers := by
  unfold closeThenOpen
  rcases s.closeAggregate p with ⟨aggregate, s1⟩
  simp only
  -- What is said of the closing has no part in what is said of the opening.
  rcases s1.renewTimer flow p.timer policy with ⟨cause | timer, s2⟩
  · refine Or.inl ⟨rfl, ?_⟩
    rcases aggregate with _ | _ <;> rfl
  simp only
  rcases hopen : s2.openAggregate flow segment timer policy extras with ⟨_ | next, s3⟩
  · refine Or.inl ⟨rfl, ?_⟩
    rcases aggregate with _ | _ <;> rfl
  · rcases openAggregate_timer hopen with ⟨rfl, htimers⟩
    refine Or.inr ⟨next, s2, rfl, ?_, rfl, htimers⟩
    rcases aggregate with _ | _ <;> rfl

/-- A segment that is merged and closes the aggregate leaves nothing pending. -/
theorem mergeThenClose_ended (s : Services) (flow : UInt64) (p : Pending) (segment : Segment) :
    (s.mergeThenClose flow p segment).flow = none ∧
      (s.mergeThenClose flow p segment).output.disposition.newAggregationStarted = false := by
  unfold mergeThenClose
  rcases (s.releaseTimer p.timer).appendSegment p segment with ⟨cause | p', s1⟩
  · exact ⟨rfl, rfl⟩
  · exact ⟨rfl, Output.started_ofClosing _⟩

/-- Nor does one that is passed on behind it. -/
theorem closeThenPass_ended (s : Services) (flow : UInt64) (p : Pending) (segment : Segment)
    (policy : Policy) :
    (s.closeThenPass flow p segment policy).flow = none ∧
      (s.closeThenPass flow p segment policy).output.disposition.newAggregationStarted
        = false := by
  unfold closeThenPass
  rcases (s.releaseTimer p.timer).closeAggregate p with ⟨aggregate, s1⟩
  rcases hrelay : s1.relay segment.frame with ⟨cause | relayed, s2⟩
  all_goals
    simp only [hrelay, true_and]
    rcases aggregate with _ | _ <;> rfl

theorem onIdle_starts (flow : UInt64) (segment : Segment) (policy : Policy) (extras : Extras)
    (sound : s.timers.Sound) : (s.onIdle flow segment policy extras).Starts s none := by
  rcases s.onIdle_timer flow segment policy extras with
    ⟨hflow, hsaid⟩ | ⟨p, s', hflow, hsaid, harm, htimers⟩
  · exact .ended hflow hsaid
  · exact .opening hflow hsaid (htimers ▸ armTimer_unspent sound harm)

theorem merge_starts (s : Services) (flow : UInt64) (p : Pending) (segment : Segment) :
    (s.merge flow p segment).Starts s (some p) := by
  rcases s.appendSegment_timers p segment with ⟨htimers, htimer⟩
  unfold merge
  rcases happend : s.appendSegment p segment with ⟨cause | p', s1⟩
  · exact .ended rfl rfl
  · rw [happend] at htimers htimer
    constructor
    case opened =>
      intro hstarted
      cases hstarted
    case kept =>
      intro _ p'' hp''
      cases hp''
      exact ⟨congrArg some (htimer p' rfl).symm, htimers⟩

/-- The timer of the next aggregate starts over, or is a new one. -/
theorem closeThenOpen_starts (s : Services) (flow : UInt64) (p : Pending) (segment : Segment)
    (policy : Policy) (extras : Extras) (sound : s.timers.Sound) :
    (s.closeThenOpen flow p segment policy extras).Starts s (some p) := by
  have hclosed : (s.closeAggregate p).2.timers.Sound := (s.timers_closeAggregate p).symm ▸ sound
  rcases s.closeThenOpen_timer flow p segment policy extras with
    ⟨hflow, hsaid⟩ | ⟨next, s', hflow, hsaid, hrenew, htimers⟩
  · exact .ended hflow hsaid
  · exact .opening hflow hsaid (htimers ▸ renewTimer_unspent hclosed hrenew)

theorem onPending_starts (s : Services) (flow : UInt64) (p : Pending) (segment : Segment)
    (policy : Policy) (extras : Extras) (sound : s.timers.Sound) :
    (s.onPending flow p segment policy extras).Starts s (some p) := by
  rcases s.onPending_cases flow p segment policy extras with
    ⟨_, hturn⟩ | ⟨_, hturn⟩ | ⟨_, _, s', _, htimers, _, ⟨_, hturn⟩ | ⟨_, hturn⟩⟩
  all_goals rw [hturn]
  · exact merge_starts s flow p segment
  · exact .ended (mergeThenClose_ended s flow p segment).1
      (mergeThenClose_ended s flow p segment).2
  · have hturn := closeThenOpen_starts s' flow p segment policy extras (htimers.symm ▸ sound)
    exact ⟨hturn.opened, htimers ▸ hturn.kept⟩
  · exact .ended (closeThenPass_ended s' flow p segment policy).1
      (closeThenPass_ended s' flow p segment policy).2

end Services

/-- What an offered segment leaves behind, as the turn of its flow. A segment that
    is refused leaves everything running. -/
theorem Engine.offer_starts (engine : Engine) (flow : UInt64) (frame : Frame) (policy : Policy)
    (extras : Extras) (sound : engine.services.timers.Sound) :
    Turn.Starts ⟨(engine.offer flow frame policy extras).1,
      (engine.offer flow frame policy extras).2.pending flow,
      (engine.offer flow frame policy extras).2.services⟩
      engine.services (engine.pending flow) := by
  rcases engine.offer_cases flow frame policy extras with
    ⟨houtput, hpending, _, htimers⟩ | ⟨segment, _, houtput, hpending, hservices⟩
  · rw [houtput, hpending]
    constructor
    case opened =>
      intro hstarted
      cases hstarted
    case kept => exact fun _ p hp => ⟨congrArg (Option.map Pending.timer) hp, htimers⟩
  · rw [houtput, hpending, if_pos rfl, hservices]
    show (engine.turn flow segment policy extras).Starts engine.services (engine.pending flow)
    unfold turn
    rcases engine.pending flow with _ | p
    · exact Services.onIdle_starts flow segment policy extras sound
    · exact Services.onPending_starts engine.services flow p segment policy extras sound

end ReceiveOffload
