import ReceiveOffload.Proofs.Deadlines

/-!
# What Timers Are Told

A timer is told how long to run and whom to tell when an aggregate was closed by
it. It is told once, when it is taken, and every call brings a policy that says
what it would tell a timer. A call on an idle flow takes a timer and tells it. A
call that closes an aggregate to open the next one passes the timer on, which
then starts over with what it was told before, and only a timer that waits can be
passed on. One that has fired is given back and a new one is taken.

## Main definitions

* `Terms`: What a timer is told.
* `Timers.terms?`: What the timer under a handle was told.
* `Turn.Grants`: What the timer was told of an aggregate that a call opened.

## Theorems

* `Services.terms?_renewTimer`: A timer that is passed on keeps its terms.
* `Engine.offer_grants`: A segment that is offered.
-/

namespace ReceiveOffload

/-- What a timer is told: how long it runs, in milliseconds, and whom to tell. -/
structure Terms where
  duration : Nat
  completion : Option Completion
  deriving DecidableEq, Repr

/-- What the policy wants timers to be told. -/
def Policy.terms (policy : Policy) : Terms where
  duration := policy.timeout * policy.granularity.milliseconds
  completion := policy.completion

/-- What a timer was told that waits. -/
def Arming.terms (arming : Arming) : Terms where
  duration := arming.duration
  completion := arming.completion

/-- What the timer under a handle was told, if it waits. -/
def Timers.terms? (timers : Timers) (handle : TimerId) : Option Terms :=
  (timers.arming? handle).map Arming.terms

theorem Timers.terms?_of_arming? {timers : Timers} {handle : TimerId} {arming : Arming}
    (h : timers.arming? handle = some arming) : timers.terms? handle = some arming.terms := by
  rw [terms?, h, Option.map_some]

/-- A call that says that it opened an aggregate left it a timer with the terms of
    the flow's timer before, if that one waited, and with its own terms if not. -/
def Turn.Grants (turn : Turn) (timers : Timers) (timer? : Option TimerId) (policy : Policy) :
    Prop :=
  turn.output.disposition.newAggregationStarted = true → ∀ p, turn.flow = some p →
    turn.services.timers.terms? p.timer = some ((timer?.bind timers.terms?).getD policy.terms)

namespace Turn.Grants

variable {turn : Turn} {timers : Timers} {timer? : Option TimerId} {policy : Policy}

/-- A call that says that it opened nothing grants nothing. -/
theorem silent (hsaid : turn.output.disposition.newAggregationStarted = false) :
    turn.Grants timers timer? policy := by
  intro hstarted
  rw [hsaid] at hstarted
  cases hstarted

theorem opening {p : Pending} (hflow : turn.flow = some p)
    (hterms : turn.services.timers.terms? p.timer
      = some ((timer?.bind timers.terms?).getD policy.terms)) :
    turn.Grants timers timer? policy := by
  intro _ p' hp'
  rw [hflow, Option.some.injEq] at hp'
  exact hp' ▸ hterms

end Turn.Grants

namespace Services

variable {s s' : Services}

/-- A timer that is taken is told what the policy wants. -/
theorem terms?_armTimer {policy : Policy} {flow : UInt64} {timer : TimerId}
    (sound : s.timers.Sound) (h : s.armTimer (policy.timerSetup flow) = (.ok timer, s')) :
    s'.timers.terms? timer = some policy.terms := by
  unfold armTimer at h
  rcases harm : s.timers.arm (policy.timerSetup flow) with ⟨result, timers⟩
  rw [harm] at h
  cases h
  exact Timers.terms?_of_arming? (Timers.arming?_arm sound harm)

/-- A timer that is passed on keeps its terms. One that cannot be is replaced by a
    timer with the terms of the call. -/
theorem terms?_renewTimer {flow : UInt64} {timer renewed : TimerId} {policy : Policy}
    (sound : s.timers.Sound) (h : s.renewTimer flow timer policy = (.ok renewed, s')) :
    s'.timers.terms? renewed = some ((s.timers.terms? timer).getD policy.terms) := by
  unfold renewTimer restartTimer at h
  rcases s.timers.restart_eq timer with
    ⟨cause, hidle, hrestart⟩ | ⟨arming, timers, hwaits, hrestart, hagain⟩
  all_goals
    rw [hrestart] at h
    simp only at h
  · rw [terms?_armTimer (sound.release timer) h, Timers.terms?, hidle]
    rfl
  · cases h
    rw [Timers.terms?_of_arming? hwaits]
    exact (Timers.terms?_of_arming? hagain).trans rfl

/-- A timer that is taken is told what the policy of the call says. -/
theorem onIdle_grants (flow : UInt64) (segment : Segment) (policy : Policy) (extras : Extras)
    (sound : s.timers.Sound) :
    (s.onIdle flow segment policy extras).Grants s.timers none policy := by
  rcases s.onIdle_timer flow segment policy extras with
    ⟨_, hsaid⟩ | ⟨p, s', hflow, _, harm, htimers⟩
  · exact .silent hsaid
  · exact .opening hflow (htimers ▸ terms?_armTimer sound harm)

/-- An aggregate that goes on was not opened. -/
theorem merge_grants (s : Services) (flow : UInt64) (p : Pending) (segment : Segment)
    (policy : Policy) :
    (s.merge flow p segment).Grants s.timers (some p.timer) policy := by
  unfold merge
  rcases s.appendSegment p segment with ⟨cause | p', s1⟩ <;> exact .silent rfl

/-- A timer that waits is passed on with its terms; one that does not is given back for
    a new one. -/
theorem closeThenOpen_grants (s : Services) (flow : UInt64) (p : Pending) (segment : Segment)
    (policy : Policy) (extras : Extras) (sound : s.timers.Sound) :
    (s.closeThenOpen flow p segment policy extras).Grants s.timers (some p.timer) policy := by
  -- Closing the aggregate leaves its timer as it was.
  have hclosed := s.timers_closeAggregate p
  rcases s.closeThenOpen_timer flow p segment policy extras with
    ⟨_, hsaid⟩ | ⟨next, s', hflow, _, hrenew, htimers⟩
  · exact .silent hsaid
  · refine .opening hflow ?_
    rw [htimers, terms?_renewTimer (hclosed.symm ▸ sound) hrenew, hclosed]
    rfl

/-- No call but one that opens an aggregate tells a timer anything. -/
theorem onPending_grants (s : Services) (flow : UInt64) (p : Pending) (segment : Segment)
    (policy : Policy) (extras : Extras) (sound : s.timers.Sound) :
    (s.onPending flow p segment policy extras).Grants s.timers (some p.timer) policy := by
  rcases s.onPending_cases flow p segment policy extras with
    ⟨_, hturn⟩ | ⟨_, hturn⟩ | ⟨_, _, s', _, htimers, _, ⟨_, hturn⟩ | ⟨_, hturn⟩⟩
  all_goals rw [hturn]
  · exact merge_grants s flow p segment policy
  · exact .silent (mergeThenClose_ended s flow p segment).2
  · rw [← htimers]
    exact closeThenOpen_grants s' flow p segment policy extras (htimers.symm ▸ sound)
  · exact .silent (closeThenPass_ended s' flow p segment policy).2

end Services

/-- What an offered segment leaves behind, as the turn of its flow. -/
theorem Engine.offer_grants (engine : Engine) (flow : UInt64) (frame : Frame) (policy : Policy)
    (extras : Extras) (sound : engine.services.timers.Sound) :
    Turn.Grants ⟨(engine.offer flow frame policy extras).1,
      (engine.offer flow frame policy extras).2.pending flow,
      (engine.offer flow frame policy extras).2.services⟩
      engine.services.timers ((engine.pending flow).map Pending.timer) policy := by
  rcases engine.offer_cases flow frame policy extras with
    ⟨houtput, _⟩ | ⟨segment, _, houtput, hpending, hservices⟩
  · rw [houtput]
    exact .silent rfl
  · rw [houtput, hpending, if_pos rfl, hservices]
    show (engine.turn flow segment policy extras).Grants engine.services.timers
      ((engine.pending flow).map Pending.timer) policy
    unfold turn
    rcases engine.pending flow with _ | p
    · exact Services.onIdle_grants flow segment policy extras sound
    · exact Services.onPending_grants engine.services flow p segment policy extras sound

end ReceiveOffload
