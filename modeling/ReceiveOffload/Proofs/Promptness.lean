import ReceiveOffload.Proofs.Leases

/-!
# No Flow Is Stranded

A timer that has fired does nothing more by itself. What it caused is left to
whoever moved the clock, and a flow whose expiry nobody delivers is stranded: its
aggregate stays open, and so does each that follows it, if it is only ever
appended to. So a promise that aggregates are closed in time is one about callers
too. They deliver what the clock handed out before they call again. In which
order they do so, how often, and how often they move the clock first, is up to
them.

Whenever nothing is left to deliver, every pending aggregate has a timer that
waits for its flow and is not due. That is an invariant only if the times between
are spoken of as well. There, an aggregate may have a timer that fired, but then
an expiry for it was handed out that is still to be delivered. Delivering it
closes the aggregate, and delivering another leaves both as they were, since a
timer that waits cannot be acknowledged. Expiries of one timer are told apart by
their deadlines: one that is handed out now had not been due before.

No use is made of generations. Calls come only when all pending aggregates have
timers that wait, each for its own flow, so a call touches no timer but the one
of its flow, however often the slots were used. How far the clock has come does
make a difference. A deadline beyond the last instant starts over and lies in the
past, so the promise is for runs whose calls come while the clock can still show
the end of any time that is asked for.

## Main definitions

* `World.Settled`: Nothing is left to deliver.
* `Prompt`: Calls come when nothing is left to deliver.
* `WithinClock`: Calls come when the clock can show the end of all times.
* `Opening.OfRun`: An aggregate and the calls that it goes back to.
* `Chronicle.Attended`: Timers wait, or their expiries are still to be delivered.
* `Opening.InTime`: The timer of a pending aggregate is not due.

## Theorems

* `World.deliver_cases`, `World.timer?_deliver`: A delivery and what is pending.
* `Chronicle.attended_run`: The invariant holds of every prompt run.
* `prompt_attended`: No flow is stranded.
-/

namespace ReceiveOffload

/-- Whether a step is a call on a flow that a caller makes by choice. -/
def Step.calls : Step → Bool
  | .offer .. | .flush _ => true
  | .advance _ | .deliver _ | .refuse .. => false

/-- Every expiry that was handed out was delivered. -/
def World.Settled (w : World) : Prop :=
  ∀ e ∈ w.expiries, e ∈ w.deliveries

instance (w : World) : Decidable w.Settled :=
  inferInstanceAs (Decidable (∀ e ∈ w.expiries, e ∈ w.deliveries))

/-- Every expiry that was handed out is delivered before the next call. -/
def Prompt (setup : Setup) (steps : List Step) : Prop :=
  ∀ n, (h : n < steps.length) → steps[n].calls = true →
    (World.run setup (steps.take n)).Settled

instance (setup : Setup) (steps : List Step) : Decidable (Prompt setup steps) :=
  inferInstanceAs (Decidable (∀ n, (h : n < steps.length) → steps[n].calls = true →
    (World.run setup (steps.take n)).Settled))

/-- How long the step may have a timer run, in milliseconds. -/
def Step.timeout : Step → Nat
  | .offer _ _ policy _ => policy.timeout * policy.granularity.milliseconds
  | .flush _ | .advance _ | .deliver _ | .refuse .. => 0

/-- Whenever there is a call, the clock can show the end of any time that is asked for
    in the run. -/
def WithinClock (setup : Setup) (steps : List Step) : Prop :=
  ∀ n, (h : n < steps.length) → steps[n].calls = true → ∀ s ∈ steps,
    (World.run setup (steps.take n)).timers.now + s.timeout ≤ lastInstant

instance (setup : Setup) (steps : List Step) : Decidable (WithinClock setup steps) :=
  inferInstanceAs (Decidable (∀ n, (h : n < steps.length) → steps[n].calls = true →
    ∀ s ∈ steps, (World.run setup (steps.take n)).timers.now + s.timeout ≤ lastInstant))

section Calls

variable {setup : Setup} {steps : List Step} {s : Step}

/-- What holds whenever there is a call held whenever there was one before, and before
    the last step if that is one. -/
theorem atCalls_concat (P : World → Prop)
    (h : ∀ n, (hn : n < (steps ++ [s]).length) → (steps ++ [s])[n].calls = true →
      P (.run setup ((steps ++ [s]).take n))) :
    (∀ n, (hn : n < steps.length) → steps[n].calls = true → P (.run setup (steps.take n))) ∧
      (s.calls = true → P (.run setup steps)) := by
  constructor
  · intro n hn hcalls
    have hlonger : n < (steps ++ [s]).length := by
      rw [List.length_append]
      omega
    have hbefore := h n hlonger (by rw [List.getElem_append_left hn]; exact hcalls)
    rw [List.take_append_of_le_length (Nat.le_of_lt hn)] at hbefore
    exact hbefore
  · intro hcalls
    have hlast := h steps.length (by simp) (by rw [List.getElem_concat_length rfl]; exact hcalls)
    rw [List.take_left] at hlast
    exact hlast

theorem Prompt.of_concat (h : Prompt setup (steps ++ [s])) : Prompt setup steps :=
  (atCalls_concat World.Settled h).1

theorem Prompt.settled (h : Prompt setup (steps ++ [s])) :
    s.calls = true → (World.run setup steps).Settled :=
  (atCalls_concat World.Settled h).2

theorem WithinClock.concat (h : WithinClock setup (steps ++ [s])) :
    WithinClock setup steps ∧ (s.calls = true →
      ∀ s' ∈ steps ++ [s], (World.run setup steps).timers.now + s'.timeout ≤ lastInstant) := by
  rcases atCalls_concat
    (fun w => ∀ s' ∈ steps ++ [s], w.timers.now + s'.timeout ≤ lastInstant) h with
    ⟨hbefore, hlast⟩
  refine ⟨fun n hn hcalls s' hs' => ?_, hlast⟩
  -- Fewer steps ask for less.
  exact hbefore n hn hcalls s' (List.mem_append_left _ hs')

end Calls

/-- The clock runs for a while on every policy. -/
theorem Policy.terms_duration_pos (policy : Policy) : 0 < policy.terms.duration := by
  refine Nat.mul_pos policy.timeout_pos ?_
  cases policy.granularity <;> decide

/-- The aggregate was opened by a call on the flow, which its timer waits for since
    then, for as long as some call on the flow asked for. -/
structure Opening.OfRun (o : Opening) (setup : Setup) (steps : List Step) (flow : UInt64) :
    Prop where
  offered : ∃ frame policy extras, steps[o.number]? = some (.offer flow frame policy extras) ∧
    ((World.run setup (steps.take o.number)).engine.offer flow frame policy
      extras).1.disposition.newAggregationStarted = true
  clock : o.clock = (World.run setup (steps.take o.number)).timers.now
  waits : o.arming.flow = flow
  inRange : o.InRange
  counted : o.arming.deadline = o.clock + o.arming.duration
  granted : ∃ frame policy extras, .offer flow frame policy extras ∈ steps ∧
    o.arming.terms = policy.terms

namespace Opening.OfRun

variable {o : Opening} {setup : Setup} {steps : List Step} {flow : UInt64}

/-- What an aggregate goes back to stays. -/
theorem concat (h : o.OfRun setup steps flow) (s : Step) :
    o.OfRun setup (steps ++ [s]) flow := by
  rcases h.offered with ⟨frame, policy, extras, hstep, hsaid⟩
  have hlt := (List.getElem?_eq_some_iff.mp hstep).1
  have htake : (steps ++ [s]).take o.number = steps.take o.number :=
    List.take_append_of_le_length (Nat.le_of_lt hlt)
  constructor
  case offered =>
    rw [List.getElem?_append_left hlt, htake]
    exact ⟨frame, policy, extras, hstep, hsaid⟩
  case clock =>
    rw [htake]
    exact h.clock
  case waits => exact h.waits
  case inRange => exact h.inRange
  case counted => exact h.counted
  case granted =>
    rcases h.granted with ⟨frame, policy, extras, hmem, hterms⟩
    exact ⟨frame, policy, extras, List.mem_append_left _ hmem, hterms⟩

/-- Its timer runs for as long as all calls ask for. -/
theorem deadline_eq (h : o.OfRun setup steps flow) (duration : Nat)
    (hsame : ∀ frame policy extras, .offer flow frame policy extras ∈ steps →
      policy.terms.duration = duration) : o.arming.deadline = o.clock + duration := by
  rcases h.granted with ⟨frame, policy, extras, hmem, hterms⟩
  rw [h.counted, ← hsame frame policy extras hmem, ← hterms]
  rfl

end Opening.OfRun

namespace World

/-- The timer of an aggregate waits, as it was armed, and is not due. A deadline that
    the clock cannot show has started over, and of that nothing is said. -/
structure Waits (w : World) (handle : TimerId) (o : Opening) : Prop where
  arming : w.timers.arming? handle = some o.arming
  ahead : o.InRange → w.timers.now < o.arming.deadline

/-- An expiry is still to be delivered that is for the timer of the flow. -/
def Owes (w : World) (flow : UInt64) (handle : TimerId) : Prop :=
  ∃ e ∈ w.expiries, e ∉ w.deliveries ∧ e.handle = handle ∧ e.flow = flow

theorem expiries_deliver (w : World) (index : Nat) :
    (w.step (.deliver index)).expiries = w.expiries := by
  rcases he : w.expiries[index]? with _ | e
  · rw [w.step_deliver_of_none index he]
  · simp [w.step_deliver he, next, expiries, Event.expiries]

/-- A delivery acknowledges its timer. It is late and leaves what is pending alone, or
    it closes what is pending on its flow. -/
theorem deliver_cases (w : World) (index : Nat) (e : Expiry) (he : w.expiries[index]? = some e) :
    (w.step (.deliver index)).timers = w.timers.acknowledge e.handle ∧
      ((w.timer? e.flow ≠ some e.handle ∧
          ∀ g, (w.step (.deliver index)).engine.pending g = w.engine.pending g) ∨
        (w.timer? e.flow = some e.handle ∧ ∀ g, (w.step (.deliver index)).engine.pending g
          = if g = e.flow then none else w.engine.pending g)) := by
  rcases w.engine.expire_eq e with ⟨hsame, _, htimers⟩
  have hstep : (w.step (.deliver index)).engine = (w.engine.expire e).2 :=
    congrArg World.engine (w.step_deliver he)
  simp only [timers, hstep, htimers, hsame]
  rcases w.engine.timeOut_cases e with
    ⟨hlate, _, hpending, _, hacknowledged⟩ | ⟨p, hp, htimer, _, hpending, hservices⟩
  · refine ⟨hacknowledged, Or.inl ⟨fun htimer => ?_, hpending⟩⟩
    rcases (w.timer?_eq_some_iff _ _).mp htimer with ⟨p, hp, heq⟩
    exact hlate p hp heq
  · refine ⟨?_, Or.inr ⟨(w.timer?_eq_some_iff _ _).mpr ⟨p, hp, htimer⟩, hpending⟩⟩
    rw [hservices]
    simp only [Services.acknowledgeTimer, Engine.timedOut, Services.timers_closeAggregate,
      Services.timers_note, Services.timers_count]

/-- What is pending after a delivery was pending before, and the expiry is not for
    it. -/
theorem timer?_deliver (w : World) {index : Nat} {e : Expiry} (he : w.expiries[index]? = some e)
    {g : UInt64} {handle : TimerId}
    (htimer : (w.step (.deliver index)).timer? g = some handle) :
    w.timer? g = some handle ∧ (w.timer? e.flow = some e.handle → g ≠ e.flow) := by
  rcases (w.deliver_cases index e he).2 with ⟨hlate, hsame⟩ | ⟨_, hclosed⟩
  · rw [timer?, hsame] at htimer
    exact ⟨htimer, fun htimely => absurd htimely hlate⟩
  · rw [timer?, hclosed] at htimer
    by_cases hg : g = e.flow
    · rw [if_pos hg] at htimer
      cases htimer
    · rw [if_neg hg] at htimer
      exact ⟨htimer, fun _ => hg⟩

end World

namespace Chronicle

/-- The timer of every pending aggregate waits, or it has fired and its expiry is
    still to be delivered. -/
structure Attended (c : Chronicle) (setup : Setup) (steps : List Step) : Prop where
  sound : c.world.timers.Sound
  clock : c.world.timers.now ≤ lastInstant
  due : ∀ e ∈ c.world.expiries, e.deadline ≤ c.world.timers.now
  delivered : ∀ e ∈ c.world.deliveries, e ∈ c.world.expiries
  watched : ∀ flow handle, c.world.timer? flow = some handle →
    ∃ o, c.current? flow = some o ∧ o.OfRun setup steps flow ∧
      (c.world.Waits handle o ∨ c.world.Owes flow handle)

namespace Attended

variable {c : Chronicle} {setup : Setup} {steps : List Step}

/-- Where nothing is left to deliver, all timers wait. -/
theorem waits (h : c.Attended setup steps) (hsettled : c.world.Settled) (flow : UInt64)
    (handle : TimerId) (htimer : c.world.timer? flow = some handle) :
    ∃ o, c.current? flow = some o ∧ o.OfRun setup steps flow ∧
      c.world.Waits handle o := by
  rcases h.watched flow handle htimer with ⟨o, hcurrent, hrun, hwaits | ⟨e, he, hleft, _⟩⟩
  · exact ⟨o, hcurrent, hrun, hwaits⟩
  · exact absurd (hsettled e he) hleft

theorem watch?_eq (h : c.Attended setup steps) (hsettled : c.world.Settled) (flow : UInt64)
    (handle : TimerId) (htimer : c.world.timer? flow = some handle) :
    c.world.timers.watch? handle = some (.waiting flow) := by
  rcases h.waits hsettled flow handle htimer with ⟨o, _, hrun, hwaits⟩
  rw [Timers.watch?_of_arming? _ handle o.arming hwaits.arming, hrun.waits]

theorem watch?_ne_none (h : c.Attended setup steps) (hsettled : c.world.Settled) (flow : UInt64)
    (handle : TimerId) (htimer : c.world.timer? flow = some handle) :
    c.world.timers.watch? handle ≠ none := by
  rw [h.watch?_eq hsettled flow handle htimer]
  exact Option.some_ne_none _

/-- An offer hands the timers of the flow over, and of no other. -/
theorem handover (h : c.Attended setup steps) (hsettled : c.world.Settled) (flow : UInt64)
    (frame : Frame) (policy : Policy) (extras : Extras) :
    Timers.Handover 2 flow c.world.timers
      (c.world.step (.offer flow frame policy extras)).timers (c.world.timer? flow)
      ((c.world.step (.offer flow frame policy extras)).timer? flow) :=
  c.world.engine.offer_handover flow frame policy extras h.sound (fun p hp =>
    h.watch?_ne_none hsettled flow p.timer
      ((c.world.timer?_eq_some_iff flow p.timer).mpr ⟨p, hp, rfl⟩))

/-- Timers that wait, each for its own flow, are different ones. -/
theorem timer_ne (h : c.Attended setup steps) (hsettled : c.world.Settled) (flow g : UInt64)
    (hg : g ≠ flow) (handle : TimerId) (htimer : c.world.timer? g = some handle) :
    c.world.timer? flow ≠ some handle := by
  intro hflow
  have hwatch := h.watch?_eq hsettled g handle htimer
  rw [h.watch?_eq hsettled flow handle hflow, Option.some.injEq, Watch.waiting.injEq] at hwatch
  exact hg hwatch.symm

/-- A step that opens nothing keeps what is pending attended, if it leaves those
    timers waiting that waited and owes what was owed. -/
theorem of_quiet (h : c.Attended setup steps) (s : Step) (hopening : c.opening? s = none)
    (sound : (c.world.step s).timers.Sound)
    (clock : c.world.timers.now ≤ (c.world.step s).timers.now ∧
      (c.world.step s).timers.now ≤ lastInstant)
    (due : ∀ e ∈ (c.world.step s).expiries,
      e ∈ c.world.expiries ∨ e.deadline ≤ (c.world.step s).timers.now)
    (delivered : ∀ e ∈ (c.world.step s).deliveries, e ∈ (c.world.step s).expiries)
    (hkept : ∀ flow handle, (c.world.step s).timer? flow = some handle →
      c.world.timer? flow = some handle ∧
      (∀ o, o.OfRun setup steps flow → c.world.Waits handle o →
        (c.world.step s).Waits handle o ∨ (c.world.step s).Owes flow handle) ∧
      (c.world.Owes flow handle → (c.world.step s).Owes flow handle)) :
    (c.step s).Attended setup (steps ++ [s]) where
  sound := sound
  clock := clock.2
  due := by
    intro e he
    rcases due e he with hbefore | hnow
    · exact Nat.le_trans (h.due e hbefore) clock.1
    · exact hnow
  delivered := delivered
  watched := by
    intro flow handle htimer
    -- No aggregate was opened, so what is pending was pending, and its opening is known.
    rcases hkept flow handle htimer with ⟨hbefore, hwaiting, howing⟩
    rcases h.watched flow handle hbefore with ⟨o, hcurrent, hrun, hstate⟩
    refine ⟨o, (Calling.current?_kept hopening handle htimer).trans hcurrent, hrun.concat s, ?_⟩
    rcases hstate with hwaits | howes
    · exact hwaiting o hrun hwaits
    · exact Or.inr (howing howes)

/-- A step that touches neither timers nor expiries is as if nothing happened. -/
theorem of_untouched (h : c.Attended setup steps) (s : Step) (hopening : c.opening? s = none)
    (htimer : ∀ flow, (c.world.step s).timer? flow = c.world.timer? flow)
    (htimers : (c.world.step s).timers = c.world.timers)
    (hexpiries : (c.world.step s).expiries = c.world.expiries)
    (hdeliveries : (c.world.step s).deliveries = c.world.deliveries) :
    (c.step s).Attended setup (steps ++ [s]) := by
  refine h.of_quiet s hopening ?_ ?_ ?_ ?_ ?_
  · rw [htimers]
    exact h.sound
  · rw [htimers]
    exact ⟨Nat.le_refl _, h.clock⟩
  · exact fun e he => Or.inl (hexpiries ▸ he)
  · rw [hexpiries, hdeliveries]
    exact h.delivered
  · intro flow handle hafter
    refine ⟨(htimer flow).symm.trans hafter, fun o _ hwaits => Or.inl ⟨?_, ?_⟩, fun howes => ?_⟩
    · rw [htimers]
      exact hwaits.arming
    · rw [htimers]
      exact hwaits.ahead
    · unfold World.Owes
      rw [hexpiries, hdeliveries]
      exact howes

/-- Moving the clock lets timers wait until they are due, and owes their expiries
    from then on. An expiry that is handed out now was not due before, so it is none
    of those that were delivered. -/
theorem advance (h : c.Attended setup steps) (elapsed : Nat) :
    (c.step (.advance elapsed)).Attended setup (steps ++ [.advance elapsed]) := by
  have hexpiries := c.world.expiries_advance elapsed
  have hdeliveries : (c.world.step (.advance elapsed)).deliveries = c.world.deliveries := by
    simp [World.step, World.next, World.deliveries, Event.delivery?]
  refine h.of_quiet (.advance elapsed) rfl (h.sound.advance elapsed) ⟨?_, Nat.min_le_right _ _⟩
    ?_ ?_ ?_
  · show c.world.timers.now ≤ min (c.world.timers.now + elapsed) lastInstant
    exact Nat.le_min.mpr ⟨Nat.le_add_right _ _, h.clock⟩
  · intro e he
    rw [hexpiries, List.mem_append] at he
    refine he.imp_right fun hnow => ?_
    rcases Timers.arming?_of_mem_advance h.sound elapsed e hnow with ⟨arming, _, hdue, _, _, heq⟩
    exact heq ▸ hdue
  · intro e he
    rw [hdeliveries] at he
    rw [hexpiries]
    exact List.mem_append_left _ (h.delivered e he)
  · intro flow handle htimer
    refine ⟨htimer, fun o hrun hwaits => ?_, fun howes => ?_⟩
    -- A timer that waited goes on waiting, or its expiry is handed out now and cannot have been
    -- delivered before.
    · rcases Timers.arming?_advance_cases h.sound elapsed hwaits.arming with
        ⟨hahead, harming⟩ | hout
      · exact Or.inl ⟨harming, fun _ => hahead⟩
      · refine Or.inr ⟨_, hexpiries ▸ List.mem_append_right _ hout, ?_, rfl, hrun.waits⟩
        rw [hdeliveries]
        intro hpast
        have hahead := hwaits.ahead hrun.inRange
        exact absurd (h.due _ (h.delivered _ hpast)) (Nat.not_le.mpr hahead)
    · rcases howes with ⟨e, he, hleft, hhandle, hflow⟩
      exact ⟨e, hexpiries ▸ List.mem_append_left _ he, hdeliveries ▸ hleft, hhandle, hflow⟩

/-- A delivery closes the aggregate whose timer has fired, and acknowledges no timer
    that waits. -/
theorem deliver (h : c.Attended setup steps) (index : Nat) :
    (c.step (.deliver index)).Attended setup (steps ++ [.deliver index]) := by
  rcases hexpiry : c.world.expiries[index]? with _ | expiry
  · have hstep := c.world.step_deliver_of_none index hexpiry
    refine h.of_untouched (.deliver index) rfl (fun flow => ?_) ?_ ?_ ?_
    all_goals rw [hstep]
  have hexpiries := c.world.expiries_deliver index
  have hdeliveries : (c.world.step (.deliver index)).deliveries
      = c.world.deliveries ++ [expiry] := by
    simp [c.world.step_deliver hexpiry, World.next, World.deliveries, Event.delivery?]
  -- Whether it is late or not, the timer under the handle is acknowledged.
  have hafter := (c.world.deliver_cases index expiry hexpiry).1
  refine h.of_quiet (.deliver index) rfl ?_ ?_ ?_ ?_ ?_
  · rw [hafter]
    exact h.sound.acknowledge expiry.handle
  · rw [hafter, Timers.now_acknowledge]
    exact ⟨Nat.le_refl _, h.clock⟩
  · exact fun e he => Or.inl (hexpiries ▸ he)
  · intro e hpast
    rw [hexpiries]
    rw [hdeliveries, List.mem_append, List.mem_singleton] at hpast
    rcases hpast with hbefore | rfl
    · exact h.delivered e hbefore
    · exact List.mem_of_getElem? hexpiry
  · intro flow handle htimer
    have hkept := c.world.timer?_deliver hexpiry htimer
    refine ⟨hkept.1, fun o _ hwaits => Or.inl ⟨?_, ?_⟩, ?_⟩
    · rw [hafter]
      exact Timers.arming?_acknowledge hwaits.arming expiry.handle
    · rw [hafter, Timers.now_acknowledge]
      exact hwaits.ahead
    · rintro ⟨e, he, hleft, rfl, rfl⟩
      refine ⟨e, hexpiries ▸ he, ?_, rfl, rfl⟩
      rw [hdeliveries, List.mem_append, List.mem_singleton, not_or]
      refine ⟨hleft, ?_⟩
      rintro rfl
      exact hkept.2 hkept.1 rfl

/-- Storage that is going to refuse frames does so without the timers. -/
theorem refuse (h : c.Attended setup steps) (store extend : Gaps) :
    (c.step (.refuse store extend)).Attended setup (steps ++ [.refuse store extend]) :=
  h.of_untouched (.refuse store extend) rfl (fun _ => rfl) rfl
    (by simp [World.step, World.next, World.expiries])
    (by simp [World.step, World.next, World.deliveries])

/-- A request to close gives back the timer of its flow. No other flow has that one,
    since nothing is left to deliver. -/
theorem flush (h : c.Attended setup steps) (hsettled : c.world.Settled) (flow : UInt64) :
    (c.step (.flush flow)).Attended setup (steps ++ [.flush flow]) := by
  have hexpiries : (c.world.step (.flush flow)).expiries = c.world.expiries := by
    simp [World.step, World.next, World.expiries, Event.expiries]
  have hdeliveries : (c.world.step (.flush flow)).deliveries = c.world.deliveries := by
    simp [World.step, World.next, World.deliveries, Event.delivery?]
  rcases c.world.engine.flush_cases flow with
    ⟨_, _, hpending, hservices⟩ | ⟨p, hp, _, hpending, hservices⟩
  · exact h.of_untouched (.flush flow) rfl (fun g => congrArg (Option.map Pending.timer)
      (hpending g)) (congrArg Services.timers hservices) hexpiries hdeliveries
  have hafter : (c.world.step (.flush flow)).timers = c.world.timers.release p.timer :=
    (congrArg Services.timers hservices).trans (c.world.engine.flushed_timers flow p)
  refine h.of_quiet (.flush flow) rfl ?_ ?_ ?_ ?_ ?_
  · rw [hafter]
    exact h.sound.release p.timer
  · rw [hafter, Timers.now_release]
    exact ⟨Nat.le_refl _, h.clock⟩
  · exact fun e he => Or.inl (hexpiries ▸ he)
  · rw [hexpiries, hdeliveries]
    exact h.delivered
  · intro g handle htimer
    have hg : g ≠ flow ∧ c.world.timer? g = some handle := by
      rw [World.timer?, show (c.world.step (.flush flow)).engine.pending g = _ from hpending g]
        at htimer
      by_cases heq : g = flow
      · rw [if_pos heq] at htimer
        cases htimer
      · rw [if_neg heq] at htimer
        exact ⟨heq, htimer⟩
    -- Two flows do not have the same timer, so releasing that of one leaves the other.
    have hother : p.timer ≠ handle := fun hsame => h.timer_ne hsettled flow g hg.1 handle hg.2
      ((c.world.timer?_eq_some_iff flow handle).mpr ⟨p, hp, hsame⟩)
    have howned := c.world.timers.owned?_release p.timer handle
    rw [if_neg hother] at howned
    refine ⟨hg.2, fun o _ hwaits => Or.inl ⟨?_, ?_⟩, fun howes => ?_⟩
    · rw [hafter, Timers.arming?_congr howned]
      exact hwaits.arming
    · rw [hafter, Timers.now_release]
      exact hwaits.ahead
    · unfold World.Owes
      rw [hexpiries, hdeliveries]
      exact howes

end Attended

/-- What a flow's timer was told some call on the flow asked for. -/
theorem Attended.asked {c : Chronicle} {setup : Setup} {steps : List Step}
    (h : c.Attended setup steps) (hsettled : c.world.Settled) (flow : UInt64) (frame : Frame)
    (policy : Policy) (extras : Extras) :
    ∃ frame' policy' extras',
      .offer flow frame' policy' extras' ∈ steps ++ [.offer flow frame policy extras] ∧
      (c.world.terms? flow).getD policy.terms = policy'.terms := by
  rcases hterms : c.world.terms? flow with _ | terms
  · exact ⟨frame, policy, extras, List.mem_append_right _ (List.mem_singleton_self _), rfl⟩
  simp only [World.terms?, Timers.terms?, Option.bind_eq_some_iff, Option.map_eq_some_iff]
    at hterms
  rcases hterms with ⟨timer, htimer, arming, harming, rfl⟩
  rcases h.waits hsettled flow timer htimer with ⟨o, _, hrun, hwaits⟩
  rcases hrun.granted with ⟨frame', policy', extras', hmem, hgranted⟩
  rw [hwaits.arming, Option.some.injEq] at harming
  exact ⟨frame', policy', extras', List.mem_append_left _ hmem, harming ▸ hgranted⟩

/-- What a segment opens waits from now on, and so does its timer. -/
theorem Attended.opened {setup : Setup} {steps : List Step}
    (h : (run setup steps).Attended setup steps) (hsettled : (run setup steps).world.Settled)
    {flow : UInt64} {frame : Frame} {policy : Policy} {extras : Extras} {o : Opening}
    (hroom : WithinClock setup (steps ++ [.offer flow frame policy extras]))
    (ho : (run setup steps).opening? (.offer flow frame policy extras) = some o) :
    o.OfRun setup (steps ++ [.offer flow frame policy extras]) flow ∧
      ((run setup steps).world.step (.offer flow frame policy extras)).Waits o.timer o := by
  have handover := h.handover hsettled flow frame policy extras
  rcases opened_offer h.sound ho with ⟨hnumber, rfl, htimer, hcounted, harming⟩
  rcases offer_of_opening _ h.sound (h.watch?_ne_none hsettled) _ o ho with
    ⟨_, _, _, hcall, _, hclock, hterms⟩
  cases hcall
  rw [steps_run] at hnumber
  rcases h.asked hsettled o.flow frame policy extras with ⟨frame', policy', extras', hmem, hasked⟩
  have hbefore : (steps ++ [Step.offer o.flow frame policy extras]).take o.number = steps := by
    rw [hnumber, List.take_left]
  have hrange : o.InRange := by
    have hend := hroom.concat.2 rfl _ hmem
    rw [Opening.InRange, hclock, world_run,
      show o.arming.duration = _ from congrArg Terms.duration (hterms.trans hasked)]
    exact hend
  constructor
  · constructor
    case offered =>
      refine ⟨frame, policy, extras, ?_, ?_⟩
      · rw [hnumber, List.getElem?_concat_length]
      · rw [hbefore, ← world_run]
        simp only [opening?, Option.ite_none_right_eq_some] at ho
        exact ho.1
    case clock => rw [hclock, hbefore, world_run]
    case waits =>
      exact handover.flow_eq htimer harming fun hbefore =>
        Or.inl (h.watch?_eq hsettled o.flow o.timer hbefore)
    case inRange => exact hrange
    case counted => exact hcounted.trans (instantAfter_of_le hrange)
    case granted => exact ⟨frame', policy', extras', hmem, hterms.trans hasked⟩
  · constructor
    case arming => exact harming
    case ahead =>
      have hpos := policy'.terms_duration_pos
      rw [← hasked, ← hterms] at hpos
      have hnow : ((run setup steps).world.step (.offer o.flow frame policy extras)).timers.now
          = o.clock := handover.now.trans hclock.symm
      rw [hnow]
      exact fun _ => hrange.lt_deadline hcounted hpos

/-- The timer of a flow for which nothing is opened was there before, and it is not
    touched. -/
theorem Attended.untouched {c : Chronicle} {setup : Setup} {steps : List Step}
    (h : c.Attended setup steps) (hsettled : c.world.Settled) {flow g : UInt64} {frame : Frame}
    {policy : Policy} {extras : Extras} {handle : TimerId}
    (htimer : (c.world.step (.offer flow frame policy extras)).timer? g = some handle)
    (hopens : ∀ o, c.opening? (.offer flow frame policy extras) = some o → o.flow ≠ g) :
    c.world.timer? g = some handle ∧
      (c.world.step (.offer flow frame policy extras)).timers.owned? handle
        = c.world.timers.owned? handle := by
  -- The flow that was called kept its timer as it opened nothing; no other flow was touched.
  by_cases hg : g = flow
  case pos =>
    subst hg
    have hnone : c.opening? (.offer g frame policy extras) = none := by
      rw [Option.eq_none_iff_forall_ne_some]
      exact fun o ho => hopens o ho (opened_offer h.sound ho).2.1
    rcases kept_offer h.sound hnone htimer with ⟨hbefore, htimers⟩
    exact ⟨hbefore, congrArg (fun timers => timers.owned? handle) htimers⟩
  case neg =>
    have hpending : (c.world.step (.offer flow frame policy extras)).timer? g
        = c.world.timer? g := by
      refine congrArg (Option.map Pending.timer) ?_
      rcases c.world.engine.offer_cases flow frame policy extras with
        ⟨_, hsame, _⟩ | ⟨_, _, _, hsame, _⟩
      · exact hsame g
      · exact (hsame g).trans (if_neg hg)
    rw [hpending] at htimer
    exact ⟨htimer, (h.handover hsettled flow frame policy extras).intact handle
      (h.timer_ne hsettled flow g hg handle htimer)
      (h.watch?_ne_none hsettled g handle htimer)⟩

/-- A segment that is offered leaves the timers of the other flows alone, and an
    aggregate that it is for goes on with its timer, or it opens one. -/
theorem Attended.offer {setup : Setup} {steps : List Step}
    (h : (run setup steps).Attended setup steps) (hsettled : (run setup steps).world.Settled)
    (flow : UInt64) (frame : Frame) (policy : Policy) (extras : Extras)
    (hroom : WithinClock setup (steps ++ [.offer flow frame policy extras])) :
    ((run setup steps).step (.offer flow frame policy extras)).Attended setup
      (steps ++ [.offer flow frame policy extras]) := by
  have handover := h.handover hsettled flow frame policy extras
  have hexpiries : ((run setup steps).world.step (.offer flow frame policy extras)).expiries
      = (run setup steps).world.expiries := by
    simp [World.step, World.next, World.expiries, Event.expiries]
  have hdeliveries : ((run setup steps).world.step (.offer flow frame policy extras)).deliveries
      = (run setup steps).world.deliveries := by
    simp [World.step, World.next, World.deliveries, Event.delivery?]
  constructor
  case sound => exact handover.sound
  case clock => exact Nat.le_trans (Nat.le_of_eq handover.now) h.clock
  case due =>
    intro e he
    exact Nat.le_trans (h.due e (hexpiries ▸ he)) (Nat.le_of_eq handover.now.symm)
  case delivered =>
    intro e he
    exact (show _ = _ from hexpiries) ▸ h.delivered e (hdeliveries ▸ he)
  case watched =>
    intro g handle htimer
    -- An aggregate that is new brings its opening along, and one that is not has the opening it
    -- had.
    by_cases hopens : ∃ o, (run setup steps).opening? (.offer flow frame policy extras) = some o ∧
        o.flow = g
    case pos =>
      rcases hopens with ⟨o, ho, rfl⟩
      rcases opened_offer h.sound ho with ⟨_, rfl, htimer', _⟩
      have hsame : o.timer = handle := Option.some.inj (htimer'.symm.trans htimer)
      rcases h.opened hsettled hroom ho with ⟨hrun, hwaits⟩
      exact ⟨o, current?_step_of_opening _ _ ho htimer', hrun, Or.inl (hsame ▸ hwaits)⟩
    case neg =>
      have hkept := h.untouched hsettled htimer (fun o ho hflow => hopens ⟨o, ho, hflow⟩)
      rcases h.waits hsettled g handle hkept.1 with ⟨o, hcurrent, hrun, hwaits⟩
      refine ⟨o, ?_, hrun.concat _, Or.inl ⟨?_, ?_⟩⟩
      · exact (current?_step_of_ne _ _ htimer (fun o' ho' hflow => hopens ⟨o', ho', hflow⟩)).trans
          hcurrent
      · exact (Timers.arming?_congr hkept.2).trans hwaits.arming
      · exact fun hrange => Nat.lt_of_le_of_lt (Nat.le_of_eq handover.now) (hwaits.ahead hrange)

/-- In a prompt run timers wait, or their expiries are still to be delivered. -/
theorem attended_run (setup : Setup) (steps : List Step) (hprompt : Prompt setup steps)
    (hroom : WithinClock setup steps) : (run setup steps).Attended setup steps := by
  -- By induction on the steps. Each call needs what was due to be delivered before it, which is
  -- what the run being prompt says of its prefix.
  induction steps using List.reverseRecOn with
  | nil =>
      constructor
      case sound => exact (Timers.sound_ofPools setup.pools).1
      case clock =>
        exact Nat.le_trans (Nat.le_of_eq (Timers.now_ofPools setup.pools)) (Nat.zero_le _)
      case due => exact fun e he => absurd he List.not_mem_nil
      case delivered => exact fun e he => absurd he List.not_mem_nil
      case watched =>
        intro flow handle htimer
        cases htimer
  | append_singleton steps s ih =>
      have h := ih hprompt.of_concat hroom.concat.1
      have hsettled : s.calls = true → (run setup steps).world.Settled := by
        intro hcalls
        rw [world_run]
        exact hprompt.settled hcalls
      rw [run_concat]
      cases s with
      | offer flow frame policy extras =>
          exact h.offer (hsettled rfl) flow frame policy extras hroom
      | flush flow => exact h.flush (hsettled rfl) flow
      | advance elapsed => exact h.advance elapsed
      | deliver index => exact h.deliver index
      | refuse store extend => exact h.refuse store extend

end Chronicle

/-- The timer of a pending aggregate waits for it and is not due. -/
structure Opening.InTime (o : Opening) (w : World) (steps : List Step) (flow : UInt64)
    (p : Pending) : Prop where
  arming : w.timers.arming? p.timer = some o.arming
  ahead : w.timers.now < o.arming.deadline
  /-- Where all calls on the flow ask for the same time, the aggregate has been open
      for less than that. -/
  within : ∀ duration, (∀ frame policy extras, .offer flow frame policy extras ∈ steps →
    policy.timeout * policy.granularity.milliseconds = duration) →
    w.timers.now < o.clock + duration

/-- No flow is stranded. In a prompt run, whenever nothing is left to deliver, every
    pending aggregate has a timer that waits since the call that opened it, and that
    is not due. -/
theorem prompt_attended (setup : Setup) (steps : List Step) (hprompt : Prompt setup steps)
    (hroom : WithinClock setup steps) (hsettled : (World.run setup steps).Settled) :
    ∀ flow p, (World.run setup steps).engine.pending flow = some p →
      ∃ o, (Chronicle.run setup steps).current? flow = some o ∧ o.OfRun setup steps flow ∧
        o.InTime (World.run setup steps) steps flow p := by
  intro flow p hp
  have h := Chronicle.attended_run setup steps hprompt hroom
  rw [← Chronicle.world_run] at hsettled hp ⊢
  rcases h.waits hsettled flow p.timer ((World.timer?_eq_some_iff _ _ _).mpr ⟨p, hp, rfl⟩) with
    ⟨o, hcurrent, hrun, hwaits⟩
  have hahead := hwaits.ahead hrun.inRange
  refine ⟨o, hcurrent, hrun, hwaits.arming, hahead, fun duration hsame => ?_⟩
  rw [← hrun.deadline_eq duration hsame]
  exact hahead

/-- The first flow times out while the second is appended to. It opens its next
    aggregate at the second attempt, since storage refuses the first. The second flow
    times out after two moves of the clock, and the first expiry is delivered again
    before the one that is owed. -/
def twoFlowsPrompt : List Step := [
  .offer 7 (plainFrame 1 [1, 2]) plainPolicy {},
  .advance 4,
  .offer 8 (plainFrame 1 [1, 2]) plainPolicy {},
  .advance 6,
  .deliver 0,
  .offer 8 (plainFrame 3 [3]) plainPolicy {},
  .refuse [0] [],
  .offer 7 (plainFrame 3 [3]) plainPolicy {},
  .offer 7 (plainFrame 3 [3]) plainPolicy {},
  .advance 3,
  .advance 1,
  .deliver 0,
  .deliver 1
]

theorem prompt_attended_twoFlows :
    Prompt {} twoFlowsPrompt ∧ WithinClock {} twoFlowsPrompt ∧
      (World.run {} twoFlowsPrompt).Settled ∧
      ∃ p, (World.run {} twoFlowsPrompt).engine.pending 7 = some p ∧
        ∃ o, (Chronicle.run {} twoFlowsPrompt).current? 7 = some o ∧
          o.OfRun {} twoFlowsPrompt 7 ∧
          o.InTime (World.run {} twoFlowsPrompt) twoFlowsPrompt 7 p := by
  have hprompt : Prompt {} twoFlowsPrompt := by decide +kernel
  have hroom : WithinClock {} twoFlowsPrompt := by decide +kernel
  have hsettled : (World.run {} twoFlowsPrompt).Settled := by decide +kernel
  have hpending : ((World.run {} twoFlowsPrompt).engine.pending 7).isSome := by decide +kernel
  rcases Option.isSome_iff_exists.mp hpending with ⟨p, hp⟩
  exact ⟨hprompt, hroom, hsettled, p, hp,
    prompt_attended {} twoFlowsPrompt hprompt hroom hsettled 7 p hp⟩

example : (Chronicle.run {} twoFlowsPrompt).current? 8 = none ∧
    ((Chronicle.run {} twoFlowsPrompt).current? 7).map
      (fun o => (o.number, o.clock, o.arming.deadline)) = some (8, 10, 20) := by
  decide +kernel

end ReceiveOffload
