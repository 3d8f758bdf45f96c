import ReceiveOffload.Proofs.Conducts
import ReceiveOffload.Proofs.Expiries
import ReceiveOffload.Proofs.Promptness

/-!
# Timers That Wait and Timers That Ran Out

While somebody works through what the clock handed out, calls may come in between. A
receiver that is told of one aggregate offers segments to other flows, and among them
are flows whose timers have fired as well, with their expiries still in the queue. So
calls do not come only when all timers wait, and what is needed of timers then is less.
The timer of a pending aggregate waits for its flow and is not due, or it has fired
because it was due. In either case the flow owns it, and no other flow has it. That is
what a call needs, and it is what a call leaves behind. Only that a timer that waits is
not due yet takes a deadline that the clock can show.

A delivery acknowledges a timer, which must not be one that another flow relies on. As
long as no handle comes around twice that is so for any delivery at all. Within a queue
it is so without counting generations, since the expiries of a queue are for different
timers: a timer that has fired and belongs to a flow is that of one expiry in the queue,
and the expiry is for the same flow.

## Main definitions

* `World.RanOut`: A timer has fired because it was due.
* `Chronicle.Watched`: The timer of every pending aggregate waits, or it ran out.
* `World.Owing`: What ran out is in the queue.

## Theorems

* `Chronicle.Watched.call`, `Chronicle.Watched.deliver`, `Chronicle.Watched.advance`:
  Calls, deliveries and the clock.
* `World.Owing.call`, `World.Owing.deliver`, `Chronicle.Watched.owing_advance`: The same
  of the queue.
* `Chronicle.watched_run`: Any run with few releases.
-/

namespace ReceiveOffload

/-- Acknowledging a timer is no matter of any other. -/
theorem Timers.owned?_acknowledge_of_ne (timers : Timers) {other handle : TimerId}
    (h : other ≠ handle) : (timers.acknowledge other).owned? handle = timers.owned? handle := by
  rw [acknowledge_eq]
  split
  · rw [owned?_release, if_neg h]
  · rfl

/-- A timer that was acknowledged has not fired. -/
theorem Timers.watch?_acknowledge_self (timers : Timers) (handle : TimerId) :
    (timers.acknowledge handle).watch? handle ≠ some .fired := by
  rw [acknowledge_eq]
  by_cases hfired : timers.watch? handle = some .fired
  · rw [if_pos hfired, watch?_release, if_pos rfl]
    exact nofun
  · rwa [if_neg hfired]

namespace World

/-- The timer of an aggregate has fired, and it was due. -/
structure RanOut (w : World) (handle : TimerId) (o : Opening) : Prop where
  fired : w.timers.watch? handle = some .fired
  due : o.arming.deadline ≤ w.timers.now

/-- A step hands the timer of one flow on and leaves the others alone. -/
structure Hands (w w' : World) (flow : UInt64) : Prop where
  handover : Timers.Handover 2 flow w.timers w'.timers (w.timer? flow) (w'.timer? flow)
  others : ∀ g, g ≠ flow → w'.timer? g = w.timer? g

/-- Timers that have fired belong to flows whose expiries are in the queue, and no two
    of these are for one timer. -/
structure Owing (w : World) (queue : List Expiry) : Prop where
  apart : (queue.map Expiry.handle).Nodup
  owed : ∀ flow handle, w.timer? flow = some handle → w.timers.watch? handle = some .fired →
    ∃ e ∈ queue, e.handle = handle ∧ e.flow = flow

end World

namespace Chronicle

/-- An aggregate and the timer that it was opened with. -/
structure Watches (c : Chronicle) (flow : UInt64) (handle : TimerId) (o : Opening) : Prop where
  timer_eq : o.timer = handle
  waits_eq : o.arming.flow = flow
  lasts : 0 < o.arming.duration
  state : c.world.Waits handle o ∨ c.world.RanOut handle o

/-- The timer of every pending aggregate waits for its flow and is not due, or it has
    fired and was due. -/
structure Watched (c : Chronicle) : Prop where
  sound : c.world.timers.Sound
  clock : c.world.timers.now ≤ lastInstant
  apart : ∀ flow g handle, c.world.timer? flow = some handle →
    c.world.timer? g = some handle → flow = g
  closed : ∀ flow, c.world.timer? flow = none → c.current? flow = none
  watched : ∀ flow handle, c.world.timer? flow = some handle →
    ∃ o, c.current? flow = some o ∧ c.Watches flow handle o

namespace Watches

variable {c : Chronicle} {flow : UInt64} {handle : TimerId} {o : Opening}

/-- A timer that waits does so for its flow. -/
theorem watch?_cases (h : c.Watches flow handle o) :
    c.world.timers.watch? handle = some (.waiting flow) ∨
      c.world.timers.watch? handle = some .fired := by
  rcases h.state with hwaits | hran
  · refine Or.inl ?_
    rw [Timers.watch?_of_arming? _ handle o.arming hwaits.arming, h.waits_eq]
  · exact Or.inr hran.fired

/-- A timer that does what it did stays with its aggregate. -/
theorem of_owned?_eq {c' : Chronicle} (h : c.Watches flow handle o)
    (howned : c'.world.timers.owned? handle = c.world.timers.owned? handle)
    (hnow : c'.world.timers.now = c.world.timers.now) : c'.Watches flow handle o where
  timer_eq := h.timer_eq
  waits_eq := h.waits_eq
  lasts := h.lasts
  state := by
    rcases h.state with ⟨harming, hahead⟩ | ⟨hfired, hdue⟩
    · exact Or.inl ⟨(Timers.arming?_congr howned).trans harming, fun h => hnow ▸ hahead h⟩
    · exact Or.inr ⟨(Timers.watch?_congr howned).trans hfired, hnow ▸ hdue⟩

end Watches

namespace Watched

variable {c : Chronicle}

theorem watch?_ne_none (h : c.Watched) (flow : UInt64) (handle : TimerId)
    (htimer : c.world.timer? flow = some handle) : c.world.timers.watch? handle ≠ none := by
  rcases h.watched flow handle htimer with ⟨o, _, hwatches⟩
  rcases hwatches.watch?_cases with hwatch | hwatch
  all_goals
    rw [hwatch]
    exact Option.some_ne_none _

/-- What the timer of a flow was told has it run for a while. -/
theorem duration_pos (h : c.Watched) (flow : UInt64) (policy : Policy) :
    0 < ((c.world.terms? flow).getD policy.terms).duration := by
  rcases hterms : c.world.terms? flow with _ | terms
  · exact policy.terms_duration_pos
  simp only [World.terms?, Timers.terms?, Option.bind_eq_some_iff, Option.map_eq_some_iff]
    at hterms
  rcases hterms with ⟨handle, htimer, arming, harming, rfl⟩
  rcases h.watched flow handle htimer with ⟨o, _, hwatches⟩
  rcases hwatches.state with hwaits | hran
  · rw [hwaits.arming, Option.some.injEq] at harming
    rw [← harming]
    exact hwatches.lasts
  · -- A timer that has fired waits for nothing.
    have hfired := hran.fired
    rw [Timers.watch?_of_arming? _ handle arming harming] at hfired
    cases hfired

/-- A call on a flow hands its timer on. -/
theorem hands_call (h : c.Watched) (call : Call) :
    c.world.Hands (c.world.step call.step) call.flow := by
  -- A flush gives the timer of the flow back, and an offer keeps it, gives it back or takes one
  -- that nobody had.
  cases call with
  | offer flow frame policy extras =>
      constructor
      · exact c.world.engine.offer_handover flow frame policy extras h.sound (fun p hp =>
          h.watch?_ne_none flow p.timer ((c.world.timer?_eq_some_iff flow p.timer).mpr
            ⟨p, hp, rfl⟩))
      · intro g hg
        refine congrArg (Option.map Pending.timer) ?_
        rcases c.world.engine.offer_cases flow frame policy extras with
          ⟨_, hpending, _⟩ | ⟨_, _, _, hpending, _⟩
        · exact hpending g
        · exact (hpending g).trans (if_neg hg)
  | flush flow =>
      rcases c.world.engine.flush_cases flow with
        ⟨_, _, hpending, hservices⟩ | ⟨p, hp, _, hpending, hservices⟩
      · have htimer : ∀ g, (c.world.step (.flush flow)).timer? g = c.world.timer? g :=
          fun g => congrArg (Option.map Pending.timer) (hpending g)
        refine ⟨?_, fun g _ => htimer g⟩
        rw [Call.flow, Call.step, htimer, World.timers, World.timers,
          show (c.world.step (.flush flow)).engine.services = _ from hservices]
        exact .kept h.sound _
      · have htimer : c.world.timer? flow = some p.timer :=
          (c.world.timer?_eq_some_iff flow p.timer).mpr ⟨p, hp, rfl⟩
        have hgone : (c.world.step (.flush flow)).timer? flow = none :=
          congrArg (Option.map Pending.timer) ((hpending flow).trans (if_pos rfl))
        have hafter : (c.world.step (.flush flow)).timers = c.world.timers.release p.timer :=
          (congrArg Services.timers hservices).trans (c.world.engine.flushed_timers flow p)
        constructor
        · rw [Call.flow, Call.step, htimer, hgone, hafter]
          exact (Timers.Handover.released h.sound p.timer
            (h.watch?_ne_none flow p.timer htimer)).mono (by decide)
        · exact fun g hg => congrArg (Option.map Pending.timer) ((hpending g).trans (if_neg hg))

/-- The timer of another flow is not the one that was handed on, and does what it
    did. -/
theorem owned?_other (h : c.Watched) {w' : World} {flow g : UInt64} {handle : TimerId}
    (hands : c.world.Hands w' flow) (hg : g ≠ flow) (htimer : c.world.timer? g = some handle) :
    w'.timer? flow ≠ some handle ∧ w'.timers.owned? handle = c.world.timers.owned? handle := by
  have howned := h.watch?_ne_none g handle htimer
  have hold : c.world.timer? flow ≠ some handle :=
    fun hflow => hg (h.apart g flow handle htimer hflow)
  refine ⟨fun hnew => ?_, hands.handover.intact handle hold howned⟩
  rcases hands.handover.runs handle hnew with ⟨hkept, _⟩ | ⟨hnone, _⟩
  · exact hold hkept
  · exact howned hnone

theorem apart_of_hands (h : c.Watched) {w' : World} {flow : UInt64}
    (hands : c.world.Hands w' flow) (g g' : UInt64) (handle : TimerId)
    (hg : w'.timer? g = some handle) (hg' : w'.timer? g' = some handle) : g = g' := by
  by_cases hflow : g = flow <;> by_cases hflow' : g' = flow
  · rw [hflow, hflow']
  · have hother := h.owned?_other hands hflow' ((hands.others g' hflow').symm.trans hg')
    exact absurd (hflow ▸ hg) hother.1
  · have hother := h.owned?_other hands hflow ((hands.others g hflow).symm.trans hg)
    exact absurd (hflow' ▸ hg') hother.1
  · exact h.apart g g' handle ((hands.others g hflow).symm.trans hg)
      ((hands.others g' hflow').symm.trans hg')

/-- What a call opens has a timer that starts with it. -/
theorem watches_opened (h : c.Watched) (call : Call) (o : Opening)
    (ho : c.opening? call.step = some o) :
    o.flow = call.flow ∧ (c.world.step call.step).timer? call.flow = some o.timer ∧
      (c.step call.step).Watches call.flow o.timer o := by
  have hands := h.hands_call call
  rcases offer_of_opening c h.sound h.watch?_ne_none call.step o ho with
    ⟨frame, policy, extras, hcall, _, hclock, hterms⟩
  cases call with
  | flush flow => cases hcall
  | offer flow frame' policy' extras' =>
      rcases opened_offer h.sound ho with ⟨_, rfl, htimer, hcounted, harming⟩
      have hlasts : 0 < o.arming.duration := by
        have hduration := h.duration_pos o.flow policy
        rwa [← hterms] at hduration
      refine ⟨rfl, htimer, rfl, ?_, hlasts, Or.inl ⟨harming, ?_⟩⟩
      · refine hands.handover.flow_eq htimer harming fun hbefore => ?_
        rcases h.watched o.flow o.timer hbefore with ⟨_, _, hwatches⟩
        exact hwatches.watch?_cases
      · intro hrange
        have hnow : (c.world.step (.offer o.flow frame' policy' extras')).timers.now = o.clock :=
          hands.handover.now.trans hclock.symm
        exact hnow ▸ hrange.lt_deadline hcounted hlasts

/-- A flow for which nothing is opened has the timer that it had, and that was not
    touched. -/
theorem kept_call (h : c.Watched) (call : Call) (g : UInt64) (handle : TimerId)
    (htimer : (c.world.step call.step).timer? g = some handle)
    (hopens : ∀ o, c.opening? call.step = some o → o.flow ≠ g) :
    c.world.timer? g = some handle ∧
      (c.world.step call.step).timers.owned? handle = c.world.timers.owned? handle := by
  have hands := h.hands_call call
  by_cases hg : g = call.flow
  case neg =>
    have hbefore := (hands.others g hg).symm.trans htimer
    exact ⟨hbefore, (h.owned?_other hands hg hbefore).2⟩
  subst hg
  cases call with
  | offer flow frame policy extras =>
      have hnone : c.opening? (.offer flow frame policy extras) = none := by
        rw [Option.eq_none_iff_forall_ne_some]
        exact fun o ho => hopens o ho (opened_offer h.sound ho).2.1
      rcases kept_offer h.sound hnone htimer with ⟨hbefore, htimers⟩
      exact ⟨hbefore, congrArg (fun timers => timers.owned? handle) htimers⟩
  | flush flow =>
      -- Nothing is pending on a flow that was flushed.
      have hgone : (c.world.engine.flush flow).2.pending flow = none := by
        rcases c.world.engine.flush_cases flow with
          ⟨hnone, _, hpending, _⟩ | ⟨_, _, _, hpending, _⟩
        · rw [hpending, hnone]
        · rw [hpending, if_pos rfl]
      rcases (World.timer?_eq_some_iff _ _ handle).mp htimer with ⟨p, hp, _⟩
      cases hgone.symm.trans hp

/-- A call may come at any time. -/
theorem call (h : c.Watched) (call : Call) : (c.step call.step).Watched := by
  have hands := h.hands_call call
  constructor
  case sound => exact hands.handover.sound
  case clock => exact Nat.le_trans (Nat.le_of_eq hands.handover.now) h.clock
  case apart => exact h.apart_of_hands hands
  case closed => exact c.current?_step_of_none call.step
  case watched =>
    intro g handle htimer
    by_cases hopens : ∃ o, c.opening? call.step = some o ∧ o.flow = g
    case pos =>
      rcases hopens with ⟨o, ho, rfl⟩
      rcases h.watches_opened call o ho with ⟨hflow, htimer', hwatches⟩
      rw [← hflow] at htimer' hwatches
      have hsame : o.timer = handle := Option.some.inj (htimer'.symm.trans htimer)
      exact ⟨o, current?_step_of_opening c call.step ho htimer', hsame ▸ hwatches⟩
    case neg =>
      have hother : ∀ o, c.opening? call.step = some o → o.flow ≠ g :=
        fun o ho hflow => hopens ⟨o, ho, hflow⟩
      rcases h.kept_call call g handle htimer hother with ⟨hbefore, howned⟩
      rcases h.watched g handle hbefore with ⟨o, hcurrent, hwatches⟩
      refine ⟨o, (current?_step_of_ne c call.step htimer hother).trans hcurrent, ?_⟩
      exact hwatches.of_owned?_eq howned hands.handover.now

/-- A step that opens nothing keeps what is pending watched, if it takes no timer
    away from it. -/
theorem of_quiet (h : c.Watched) (s : Step) (hopening : c.opening? s = none)
    (sound : (c.world.step s).timers.Sound)
    (clock : (c.world.step s).timers.now ≤ lastInstant)
    (hkept : ∀ flow handle, (c.world.step s).timer? flow = some handle →
      c.world.timer? flow = some handle ∧ ∀ o, c.Watches flow handle o →
        (c.world.step s).Waits handle o ∨ (c.world.step s).RanOut handle o) :
    (c.step s).Watched where
  sound := sound
  clock := clock
  apart := by
    intro flow g handle hflow hg
    exact h.apart flow g handle (hkept flow handle hflow).1 (hkept g handle hg).1
  closed := c.current?_step_of_none s
  watched := by
    intro flow handle htimer
    rcases hkept flow handle htimer with ⟨hbefore, hstate⟩
    rcases h.watched flow handle hbefore with ⟨o, hcurrent, hwatches⟩
    exact ⟨o, (Calling.current?_kept hopening handle htimer).trans hcurrent,
      { hwatches with state := hstate o hwatches }⟩

/-- Moving the clock lets timers wait on, or they run out. -/
theorem advance (h : c.Watched) (elapsed : Nat) : (c.step (.advance elapsed)).Watched := by
  have hlater : c.world.timers.now ≤ c.world.timers.moved elapsed :=
    Nat.le_min.mpr ⟨Nat.le_add_right _ _, h.clock⟩
  refine h.of_quiet (.advance elapsed) rfl (h.sound.advance elapsed) (Nat.min_le_right _ _) ?_
  intro flow handle htimer
  refine ⟨htimer, fun o hwatches => ?_⟩
  rcases hwatches.state with hwaits | hran
  · rcases Timers.arming?_advance_cases h.sound elapsed hwaits.arming with
      ⟨hahead, harming⟩ | hout
    · exact Or.inl ⟨harming, fun _ => hahead⟩
    · refine Or.inr ⟨(Timers.watch?_of_mem_advance h.sound elapsed _ hout).2, ?_⟩
      rcases Timers.arming?_of_mem_advance h.sound elapsed _ hout with
        ⟨arming, _, hdue, _, _, heq⟩
      exact Nat.le_trans (Nat.le_of_eq heq.symm) hdue
  · refine Or.inr ⟨?_, Nat.le_trans hran.due hlater⟩
    -- What has fired does not fire again.
    rcases Timers.watch?_advance h.sound elapsed handle with hsame | ⟨e, he, rfl⟩
    · exact hsame.trans hran.fired
    · exact (Timers.watch?_of_mem_advance h.sound elapsed e he).2

/-- Storage that is going to refuse frames does so without the timers. -/
theorem refuse (h : c.Watched) (store extend : Gaps) :
    (c.step (.refuse store extend)).Watched :=
  h.of_quiet (.refuse store extend) rfl h.sound h.clock fun _ _ htimer =>
    ⟨htimer, fun _ hwatches => hwatches.state.imp (fun h => ⟨h.arming, h.ahead⟩)
      fun h => ⟨h.fired, h.due⟩⟩

/-- An expiry that was not handed out cannot be delivered. -/
theorem deliver_of_none (h : c.Watched) (index : Nat) (he : c.world.expiries[index]? = none) :
    (c.step (.deliver index)).Watched := by
  have hstep := c.world.step_deliver_of_none index he
  refine h.of_quiet (.deliver index) rfl ?_ ?_ ?_
  all_goals rw [hstep]
  · exact h.sound
  · exact h.clock
  · exact fun _ _ htimer => ⟨htimer, fun _ hwatches => hwatches.state⟩

/-- A delivery may come at any time, as long as no other flow relies on its timer. -/
theorem deliver (h : c.Watched) (index : Nat) (e : Expiry)
    (he : c.world.expiries[index]? = some e)
    (hsole : ∀ g, c.world.timer? g = some e.handle →
      c.world.timers.watch? e.handle = some .fired → g = e.flow) :
    (c.step (.deliver index)).Watched := by
  have htimers := (c.world.deliver_cases index e he).1
  refine h.of_quiet (.deliver index) rfl ?_ ?_ ?_
  · rw [htimers]
    exact h.sound.acknowledge e.handle
  · rw [htimers, Timers.now_acknowledge]
    exact h.clock
  · intro g handle htimer
    have hbefore := c.world.timer?_deliver he htimer
    refine ⟨hbefore.1, fun o hwatches => ?_⟩
    rcases hwatches.state with hwaits | hran
    · refine Or.inl ⟨?_, ?_⟩
      · rw [htimers]
        exact Timers.arming?_acknowledge hwaits.arming e.handle
      · rw [htimers, Timers.now_acknowledge]
        exact hwaits.ahead
    -- A timer that has run out is acknowledged for its own flow alone, and then the flow has no
    -- timer left.
    · have hne : e.handle ≠ handle := by
        rintro rfl
        have hg := hsole g hbefore.1 hran.fired
        exact hbefore.2 (hg ▸ hbefore.1) hg
      refine Or.inr ⟨?_, ?_⟩
      · rw [htimers, Timers.watch?_congr (c.world.timers.owned?_acknowledge_of_ne hne)]
        exact hran.fired
      · rw [htimers, Timers.now_acknowledge]
        exact hran.due

/-- What runs out when the clock is moved is in the queue then. -/
theorem owing_advance (h : c.Watched) (howing : c.world.Owing []) (elapsed : Nat) :
    (c.world.step (.advance elapsed)).Owing (c.world.timers.advance elapsed).1 where
  apart := (h.sound.fires elapsed).once
  owed := by
    intro flow handle htimer hfired
    rcases h.watched flow handle htimer with ⟨o, _, hwatches⟩
    rcases hwatches.state with hwaits | hran
    · rcases Timers.arming?_advance_cases h.sound elapsed hwaits.arming with
        ⟨_, harming⟩ | hout
      · have hwatch := Timers.watch?_of_arming? _ handle o.arming harming
        cases hwatch.symm.trans hfired
      · exact ⟨_, hout, rfl, hwatches.waits_eq⟩
    · rcases howing.owed flow handle htimer hran.fired with ⟨e, he, _⟩
      cases he

end Watched

end Chronicle

namespace World.Owing

variable {c : Chronicle} {queue : List Expiry}

/-- A timer that has fired is relied on by the flow that its expiry is for. -/
theorem sole (h : c.world.Owing queue) (e : Expiry) (he : e ∈ queue ∨ queue = []) (g : UInt64)
    (htimer : c.world.timer? g = some e.handle)
    (hfired : c.world.timers.watch? e.handle = some .fired) : g = e.flow := by
  rcases h.owed g e.handle htimer hfired with ⟨e', he', hhandle, hflow⟩
  rcases he with hmem | rfl
  · rw [← hflow, List.inj_on_of_nodup_map h.apart he' hmem hhandle]
  · cases he'

/-- A call lets no timer fire. -/
theorem call (h : c.world.Owing queue) (watched : c.Watched) (call : Call) :
    (c.world.step call.step).Owing queue where
  apart := h.apart
  owed := by
    have hands := watched.hands_call call
    intro g handle htimer hfired
    by_cases hg : g = call.flow
    · subst hg
      rcases hands.handover.runs handle htimer with ⟨hbefore, hsame⟩ | ⟨_, hnew⟩
      · exact h.owed call.flow handle hbefore (hsame.symm.trans hfired)
      · cases hnew.symm.trans hfired
    · have hbefore := (hands.others g hg).symm.trans htimer
      have howned := (watched.owned?_other hands hg hbefore).2
      exact h.owed g handle hbefore ((Timers.watch?_congr howned).symm.trans hfired)

/-- What was delivered is no longer owed. -/
theorem deliver (h : c.world.Owing queue) (index : Nat) (e : Expiry)
    (he : c.world.expiries[index]? = some e) :
    (c.world.step (.deliver index)).Owing (queue.erase e) where
  apart := h.apart.sublist (List.erase_sublist.map Expiry.handle)
  owed := by
    intro g handle htimer hfired
    have hbefore := (c.world.timer?_deliver he htimer).1
    rw [(c.world.deliver_cases index e he).1] at hfired
    have hne : e.handle ≠ handle := by
      rintro rfl
      exact c.world.timers.watch?_acknowledge_self e.handle hfired
    rw [Timers.watch?_congr (c.world.timers.owned?_acknowledge_of_ne hne)] at hfired
    rcases h.owed g handle hbefore hfired with ⟨e', he', hhandle, hflow⟩
    refine ⟨e', (List.mem_erase_of_ne ?_).mpr he', hhandle, hflow⟩
    rintro rfl
    exact hne hhandle

end World.Owing

namespace Chronicle

/-- In a run with few releases all timers wait or ran out. -/
theorem watched_run (setup : Setup) (steps : List Step)
    (hfew : (World.run setup steps).FewReleases) : (run setup steps).Watched := by
  induction steps using List.reverseRecOn with
  | nil =>
      constructor
      case sound => exact (Timers.sound_ofPools setup.pools).1
      case clock =>
        exact Nat.le_trans (Nat.le_of_eq (Timers.now_ofPools setup.pools)) (Nat.zero_le _)
      case apart =>
        intro flow g handle htimer
        cases htimer
      case closed => exact fun _ _ => rfl
      case watched =>
        intro flow handle htimer
        cases htimer
  | append_singleton steps s ih =>
      rw [World.run_concat] at hfew
      have hbefore := hfew.of_step
      have h := ih hbefore
      have htended := World.tended_run setup steps hbefore
      rw [← world_run] at hbefore htended
      rw [run_concat]
      cases s with
      | offer flow frame policy extras => exact h.call (.offer flow frame policy extras)
      | flush flow => exact h.call (.flush flow)
      | advance elapsed => exact h.advance elapsed
      | refuse store extend => exact h.refuse store extend
      | deliver index =>
          rcases he : (run setup steps).world.expiries[index]? with _ | e
          · exact h.deliver_of_none index he
          refine h.deliver index e he fun g htimer hfired => ?_
          -- Either the flow of the expiry still has the timer, or the handle is an old one, under
          -- which nothing has fired.
          rcases htended.issued e (List.mem_of_getElem? he) with ⟨_, howner⟩ | hold
          · exact htended.apart g e.flow e.handle htimer howner
          · cases (htended.watch?_old hbefore e.handle hold).symm.trans hfired

end Chronicle

end ReceiveOffload
