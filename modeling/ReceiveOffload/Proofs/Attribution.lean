import ReceiveOffload.Proofs.Chronicles
import ReceiveOffload.Proofs.Deadlines

/-!
# Putting Expiries Down to Aggregates

A chronicle stays faithful whatever happens. All steps but moving the clock are
calls on one flow, and of a call three things have to be known. What it opens
has a timer that starts with it, what goes on has its timer as it was, and what
it closes by a timer was pending and is due. For the other flows nothing has
happened, since nobody else's timer was touched.

Moving the clock opens nothing and closes nothing. It hands out the timers that
are due, and each of them is that of a pending aggregate, to which it was put
down when it was armed.

## Main definitions

* `Chronicle.Calling`: A step that is a call on one flow.

## Theorems

* `Chronicle.Calling.faithful`: A call keeps the account faithful.
* `Chronicle.Faithful.advance`: Moving the clock does.
* `Chronicle.faithful_run`: The account is faithful in every run with few
  releases.
-/

namespace ReceiveOffload

namespace Chronicle

/-- A step that is a call on one flow. What it opens has a timer that starts with
    it, and what goes on keeps its timer as it was. -/
structure Calling (c : Chronicle) (s : Step) (flow : UInt64) : Prop where
  pass : c.world.Passing (c.world.step s) flow
  silent : c.handedOut s = []
  opened : ∀ o, c.opening? s = some o → o.number = c.steps ∧ o.flow = flow ∧
    (c.world.step s).timer? flow = some o.timer ∧
    o.arming.deadline = instantAfter o.clock o.arming.duration ∧
    (c.world.step s).timers.arming? o.timer = some o.arming
  kept : c.opening? s = none → ∀ h, (c.world.step s).timer? flow = some h →
    c.world.timer? flow = some h ∧
      (c.world.step s).timers.owned? h = c.world.timers.owned? h
  /-- An aggregate is closed by its timer at its deadline or later. -/
  timedOut : c.timedOut s = [] ∨ ∃ t, c.timedOut s = [t] ∧ c.current? flow = some t.opening ∧
    (c.world.step s).timer? flow = none ∧ t.opening.arming.deadline ≤ t.clock
  told : (c.world.step s).history.filterMap Event.timedOut?
    = c.world.history.filterMap Event.timedOut? ++ (c.timedOut s).filterMap Timeout.aggregate

section Step

variable {c : Chronicle} {s : Step} {flow : UInt64}

/-- Where nothing is pending, nothing is put down. -/
theorem current?_step_of_none (c : Chronicle) (s : Step) (g : UInt64)
    (h : (c.world.step s).timer? g = none) : (c.step s).current? g = none := by
  simp only [step, ← World.isSome_timer?, h, Option.isSome_none, Bool.false_eq_true, if_false]

/-- What is put down for a flow stays, if something is pending and nothing was
    opened for the flow. -/
theorem current?_step_of_ne (c : Chronicle) (s : Step) {g : UInt64} {h : TimerId}
    (htimer : (c.world.step s).timer? g = some h)
    (hne : ∀ o, c.opening? s = some o → o.flow ≠ g) : (c.step s).current? g = c.current? g := by
  simp only [step, ← World.isSome_timer?, htimer, Option.isSome_some, if_true]
  rcases hopening : c.opening? s with _ | o
  · rfl
  · simp only [Option.filter_some, hne o hopening, decide_false, Bool.false_eq_true, if_false,
      Option.none_or]

/-- What a step opens is put down for its flow. -/
theorem current?_step_of_opening (c : Chronicle) (s : Step) {h : TimerId} {o : Opening}
    (ho : c.opening? s = some o) (htimer : (c.world.step s).timer? o.flow = some h) :
    (c.step s).current? o.flow = some o := by
  simp only [step, ← World.isSome_timer?, htimer, Option.isSome_some, if_true, ho,
    Option.filter_some, decide_true, Option.some_or]

/-- A step that opens nothing for a handle leaves the handle where it was put
    down. -/
theorem armedFor?_step_of_ne (c : Chronicle) (s : Step) (h : TimerId)
    (hne : ∀ o, c.opening? s = some o → o.timer ≠ h) :
    (c.step s).armedFor? h = c.armedFor? h := by
  simp only [step]
  rcases hopening : c.opening? s with _ | o
  · rfl
  · simp only [Option.filter_some, hne o hopening, decide_false, Bool.false_eq_true, if_false,
      Option.none_or]

theorem armedFor?_step_of_opening (c : Chronicle) (s : Step) (o : Opening)
    (ho : c.opening? s = some o) : (c.step s).armedFor? o.timer = some o := by
  simp only [step, ho, Option.filter_some, decide_true, if_true, Option.some_or]

namespace Calling

/-- What is put down for another flow stays. -/
theorem current?_other (call : c.Calling s flow) (h : c.Faithful) (g : UInt64) (hg : g ≠ flow) :
    (c.step s).current? g = c.current? g := by
  have hsame := call.pass.others g hg
  rcases htimer : c.world.timer? g with _ | handle <;> rw [htimer] at hsame
  · rw [h.closed g htimer, c.current?_step_of_none s g hsame]
  · exact c.current?_step_of_ne s hsame (fun o ho heq =>
      hg (heq.symm.trans (call.opened o ho).2.1))

/-- What a call opens is what is put down for its flow. -/
theorem current?_opened (call : c.Calling s flow) (o : Opening) (ho : c.opening? s = some o) :
    (c.step s).current? flow = some o := by
  rcases call.opened o ho with ⟨_, rfl, htimer, _⟩
  exact c.current?_step_of_opening s ho htimer

theorem current?_kept (ho : c.opening? s = none) (h : TimerId)
    (htimer : (c.world.step s).timer? flow = some h) :
    (c.step s).current? flow = c.current? flow :=
  c.current?_step_of_ne s htimer (fun o ho' => by rw [ho] at ho'; cases ho')

/-- What is put down after a call was opened by it, or it was put down before and
    goes on. -/
theorem current?_cases (call : c.Calling s flow) (h : c.Faithful) (g : UInt64) (o : Opening)
    (hcurrent : (c.step s).current? g = some o) :
    (c.opening? s = some o ∧ g = flow) ∨
      (c.current? g = some o ∧ (c.world.step s).timer? g ≠ none) := by
  have htimer : (c.world.step s).timer? g ≠ none := by
    intro hnone
    rw [c.current?_step_of_none s g hnone] at hcurrent
    cases hcurrent
  by_cases hg : g = flow
  · subst hg
    rcases hopening : c.opening? s with _ | o'
    · rcases Option.ne_none_iff_exists'.mp htimer with ⟨handle, hhandle⟩
      rw [current?_kept hopening handle hhandle] at hcurrent
      exact Or.inr ⟨hcurrent, htimer⟩
    · rw [call.current?_opened o' hopening] at hcurrent
      exact Or.inl ⟨hcurrent, rfl⟩
  · rw [call.current?_other h g hg] at hcurrent
    exact Or.inr ⟨hcurrent, htimer⟩

/-- The timer of another flow stays with its aggregate. -/
theorem tracks_other (call : c.Calling s flow) (tended : c.world.Tended) (g : UInt64)
    (hg : g ≠ flow) (handle : TimerId) (htimer : c.world.timer? g = some handle) (o : Opening)
    (tracks : c.Tracks g handle o) : (c.step s).Tracks g handle o := by
  have hold : c.world.timer? flow ≠ some handle :=
    fun hflow => hg (tended.apart g flow handle htimer hflow)
  refine tracks.of_owned?_eq (c.armedFor?_step_of_ne s handle (fun o' ho' hsame => ?_))
    (call.pass.handover.intact handle hold (tended.watch?_ne_none g handle htimer))
  -- What was opened has another timer, since this one was owned already.
  have htimer' := (call.opened o' ho').2.2.1
  exact (call.pass.watch?_other tended g hg handle htimer).2 (hsame ▸ htimer')

/-- The timer of what a call opens is put down to it. -/
theorem tracks_opened (call : c.Calling s flow) (tended : (c.world.step s).Tended) (o : Opening)
    (ho : c.opening? s = some o) : (c.step s).Tracks flow o.timer o := by
  rcases call.opened o ho with ⟨_, hflow, htimer, hcounted, harming⟩
  constructor
  case timer_eq => rfl
  case flow_eq => exact hflow
  case waits_eq =>
    exact tended.eq_of_waiting flow o.arming.flow o.timer htimer
      (Timers.watch?_of_arming? _ o.timer o.arming harming)
  case counted => exact hcounted
  case armedFor => exact c.armedFor?_step_of_opening s o ho
  case running => exact Or.inl harming

theorem tracks_kept (call : c.Calling s flow) (ho : c.opening? s = none) (handle : TimerId)
    (htimer : (c.world.step s).timer? flow = some handle) (o : Opening)
    (tracks : c.Tracks flow handle o) : (c.step s).Tracks flow handle o := by
  refine tracks.of_owned?_eq (c.armedFor?_step_of_ne s handle (fun o' ho' => ?_))
    (call.kept ho handle htimer).2
  rw [ho] at ho'
  cases ho'

/-- An expiry stays with the aggregate that its timer was armed for, or its handle
    is old. -/
theorem armedFor?_issued (call : c.Calling s flow) (tended : (c.world.step s).Tended) (e : Expiry)
    (he : e ∈ c.world.expiries) (o : Opening) (harmed : c.armedFor? e.handle = some o) :
    (c.step s).armedFor? e.handle = some o ∨ (c.world.step s).Old e.handle := by
  by_cases hopened : ∃ o', c.opening? s = some o' ∧ o'.timer = e.handle
  · -- A timer that has just been armed has not fired, so the expiry is not of it.
    rcases hopened with ⟨o', ho', hsame⟩
    rcases call.opened o' ho' with ⟨_, _, _, _, harming⟩
    have hwaits := Timers.watch?_of_arming? _ o'.timer o'.arming harming
    rcases tended.issued e (call.pass.expiries ▸ he) with ⟨hfired, _⟩ | hold
    · rw [← hsame, hwaits] at hfired
      cases hfired
    · exact Or.inr hold
  · refine Or.inl ?_
    rw [c.armedFor?_step_of_ne s e.handle (fun o' ho' hsame => hopened ⟨o', ho', hsame⟩)]
    exact harmed

/-- What was closed by its timer was so before, or it was pending until now. -/
theorem timeouts_cases (call : c.Calling s flow) (t : Timeout) (ht : t ∈ (c.step s).timeouts) :
    t ∈ c.timeouts ∨ (c.current? flow = some t.opening ∧
      (c.world.step s).timer? flow = none ∧ t.opening.arming.deadline ≤ t.clock) := by
  rcases List.mem_append.mp ht with hpast | hnow
  · exact Or.inl hpast
  · rcases call.timedOut with hnone | ⟨t', ht', hclosed⟩
    · rw [hnone] at hnow
      cases hnow
    · rw [ht', List.mem_singleton] at hnow
      exact Or.inr (hnow ▸ hclosed)

/-- Numbers are used once, and an aggregate that was closed by its timer is no
    longer there. -/
theorem numbered (call : c.Calling s flow) (h : c.Faithful) (g : UInt64) (o : Opening)
    (hcurrent : (c.step s).current? g = some o) :
    o.number < c.steps + 1 ∧ ∀ t ∈ (c.step s).timeouts, t.opening.number ≠ o.number := by
  rcases call.current?_cases h g o hcurrent with ⟨ho, _⟩ | ⟨hbefore, htimer⟩
  · -- Everything else was opened earlier.
    have hnumber := (call.opened o ho).1
    refine ⟨by omega, fun t ht => Nat.ne_of_lt (hnumber ▸ ?_)⟩
    rcases call.timeouts_cases t ht with hpast | ⟨hclosed, _⟩
    · exact (h.past t hpast).1
    · exact (h.numbered flow t.opening hclosed).1
  · rcases h.numbered g o hbefore with ⟨hlt, hne⟩
    refine ⟨Nat.lt_succ_of_lt hlt, fun t ht => ?_⟩
    rcases call.timeouts_cases t ht with hpast | ⟨hclosed, hended, _⟩
    · exact hne t hpast
    · -- What is pending still was not closed.
      intro hsame
      have hflow := h.apart flow g t.opening o hclosed hbefore hsame
      exact htimer (hflow ▸ hended)

theorem apart (call : c.Calling s flow) (h : c.Faithful) (g g' : UInt64) (o o' : Opening)
    (hcurrent : (c.step s).current? g = some o) (hcurrent' : (c.step s).current? g' = some o')
    (hsame : o.number = o'.number) : g = g' := by
  rcases call.current?_cases h g o hcurrent with ⟨ho, hg⟩ | ⟨hbefore, _⟩ <;>
    rcases call.current?_cases h g' o' hcurrent' with ⟨ho', hg'⟩ | ⟨hbefore', _⟩
  · rw [hg, hg']
  · have hlt := (h.numbered g' o' hbefore').1
    have hnumber := (call.opened o ho).1
    omega
  · have hlt := (h.numbered g o hbefore).1
    have hnumber := (call.opened o' ho').1
    omega
  · exact h.apart g g' o o' hbefore hbefore' hsame

/-- A call on one flow keeps the account faithful. -/
theorem faithful (call : c.Calling s flow) (h : c.Faithful) (tended : c.world.Tended)
    (tended' : (c.world.step s).Tended) : (c.step s).Faithful := by
  have hnow : (c.world.step s).timers.now = c.world.timers.now := call.pass.handover.now
  have hissued : (c.step s).issued = c.issued := by
    simp only [Chronicle.step, call.silent, List.append_nil]
  constructor
  case clock => exact hnow ▸ h.clock
  case closed => exact c.current?_step_of_none s
  case tracked =>
    intro g handle htimer
    by_cases hg : g = flow
    case neg =>
      have hbefore := (call.pass.others g hg).symm.trans htimer
      rcases h.tracked g handle hbefore with ⟨o, hcurrent, tracks⟩
      exact ⟨o, (call.current?_other h g hg).trans hcurrent,
        call.tracks_other tended g hg handle hbefore o tracks⟩
    subst hg
    rcases ho : c.opening? s with _ | o
    · rcases h.tracked g handle (call.kept ho handle htimer).1 with ⟨o, hcurrent, tracks⟩
      exact ⟨o, (current?_kept ho handle htimer).trans hcurrent,
        call.tracks_kept ho handle htimer o tracks⟩
    · have hhandle : o.timer = handle := by
        have htimer' := (call.opened o ho).2.2.1
        rw [show (c.world.step s).timer? g = some handle from htimer, Option.some.injEq] at htimer'
        exact htimer'.symm
      exact ⟨o, call.current?_opened o ho, hhandle ▸ call.tracks_opened tended' o ho⟩
  case listed =>
    rw [hissued, h.listed]
    exact call.pass.expiries.symm
  case issued =>
    intro e entry he
    rw [hissued] at he
    rcases h.issued e entry he with ⟨o, hentry, harms, hdue, hfor⟩
    refine ⟨o, hentry, harms, hnow.symm ▸ hdue, ?_⟩
    rcases hfor with harmed | hold
    · have hexpiry : e ∈ c.world.expiries := by
        rw [← h.listed]
        exact List.mem_map_of_mem he
      exact call.armedFor?_issued tended' e hexpiry o harmed
    · exact Or.inr (call.pass.old e.handle hold)
  case numbered => exact call.numbered h
  case apart => exact call.apart h
  case once =>
    rcases call.timedOut with hnone | ⟨t, ht, hclosed, _⟩
    · simp only [Chronicle.step, hnone, List.append_nil]
      exact h.once
    · simp only [Chronicle.step, ht, List.map_append, List.map_cons, List.map_nil]
      refine List.nodup_append.mpr ⟨h.once, List.nodup_singleton _, ?_⟩
      intro number hpast number' hnow hsame
      rw [List.mem_singleton] at hnow
      rcases List.mem_map.mp hpast with ⟨t', ht', rfl⟩
      exact (h.numbered flow t.opening hclosed).2 t' ht' (hsame.trans hnow)
  case past =>
    intro t ht
    rcases call.timeouts_cases t ht with hpast | ⟨hclosed, _, hdue⟩
    · rcases h.past t hpast with ⟨hlt, hcounted, hdue⟩
      exact ⟨Nat.lt_succ_of_lt hlt, hcounted, hdue⟩
    · rcases h.exists_timer flow t.opening hclosed with ⟨_, _, tracks⟩
      exact ⟨Nat.lt_succ_of_lt (h.numbered flow t.opening hclosed).1, tracks.counted, hdue⟩
  case told =>
    simp only [Chronicle.step, List.filterMap_append, h.told]
    exact call.told.symm

end Calling

/-- A step that opens nothing and closes nothing by its timer, and leaves no timer
    to the flow that it had not before. -/
theorem calling_of_quiet (pass : c.world.Passing (c.world.step s) flow)
    (hsilent : c.handedOut s = []) (hopening : c.opening? s = none) (htimedOut : c.timedOut s = [])
    (hkept : ∀ h, (c.world.step s).timer? flow = some h → c.world.timer? flow = some h ∧
      (c.world.step s).timers.owned? h = c.world.timers.owned? h)
    (htold : (c.world.step s).history.filterMap Event.timedOut?
      = c.world.history.filterMap Event.timedOut?) : c.Calling s flow where
  pass := pass
  silent := hsilent
  opened := by
    intro o ho
    rw [hopening] at ho
    cases ho
  kept := fun _ => hkept
  timedOut := Or.inl htimedOut
  told := by rw [htold, htimedOut, List.filterMap_nil, List.append_nil]

/-- What a segment opens has a timer that starts with it. -/
theorem opened_offer (sound : c.world.timers.Sound) {flow : UInt64} {frame : Frame}
    {policy : Policy} {extras : Extras} {o : Opening}
    (ho : c.opening? (.offer flow frame policy extras) = some o) :
    o.number = c.steps ∧ o.flow = flow ∧
      (c.world.step (.offer flow frame policy extras)).timer? flow = some o.timer ∧
      o.arming.deadline = instantAfter o.clock o.arming.duration ∧
      (c.world.step (.offer flow frame policy extras)).timers.arming? o.timer
        = some o.arming := by
  have starts := c.world.engine.offer_starts flow frame policy extras sound
  simp only [World.step]
  rcases hoffer : c.world.engine.offer flow frame policy extras with ⟨output, engine⟩
  rw [hoffer] at starts
  simp only [opening?, hoffer, Option.ite_none_right_eq_some, Option.bind_eq_some_iff,
    Option.map_eq_some_iff] at ho
  rcases ho with ⟨hsaid, p, hp, arming, harming, rfl⟩
  rcases starts.opened hsaid with ⟨p', hp', arming', harming', hcounted⟩
  -- The aggregate and the arming that were found are those that were promised.
  rw [show engine.pending flow = some p' from hp', Option.some.injEq] at hp
  subst hp
  rw [show engine.services.timers.arming? p'.timer = some arming' from harming',
    Option.some.injEq] at harming
  subst harming
  exact ⟨rfl, rfl, (World.timer?_eq_some_iff _ flow p'.timer).mpr ⟨p', hp', rfl⟩, hcounted,
    harming'⟩

/-- Where a segment opens nothing and something is pending, no timer was touched. -/
theorem kept_offer (sound : c.world.timers.Sound) {flow : UInt64} {frame : Frame}
    {policy : Policy} {extras : Extras}
    (ho : c.opening? (.offer flow frame policy extras) = none) {handle : TimerId}
    (htimer : (c.world.step (.offer flow frame policy extras)).timer? flow = some handle) :
    c.world.timer? flow = some handle ∧
      (c.world.step (.offer flow frame policy extras)).timers = c.world.timers := by
  have starts := c.world.engine.offer_starts flow frame policy extras sound
  simp only [World.step] at htimer ⊢
  rcases hoffer : c.world.engine.offer flow frame policy extras with ⟨output, engine⟩
  rw [hoffer] at starts htimer
  rcases (World.timer?_eq_some_iff _ flow handle).mp htimer with ⟨p, hp, rfl⟩
  have hsaid : output.disposition.newAggregationStarted = false := by
    rw [← Bool.not_eq_true]
    intro hsaid
    rcases starts.opened hsaid with ⟨p', hp', arming, harming, _⟩
    simp only at hp' harming
    simp only [opening?, hoffer, hsaid, if_true, hp', Option.bind_some, harming, Option.map_some,
      reduceCtorEq] at ho
  exact starts.kept hsaid p hp

/-- A call that says that it opened an aggregate did, and its timer starts with
    it. -/
theorem calling_offer (tended : c.world.Tended) (flow : UInt64) (frame : Frame) (policy : Policy)
    (extras : Extras) : c.Calling (.offer flow frame policy extras) flow where
  pass := tended.passing_offer flow frame policy extras
  silent := rfl
  opened := fun _ ho => opened_offer tended.sound ho
  kept := by
    intro ho handle htimer
    rcases kept_offer tended.sound ho htimer with ⟨hsame, htimers⟩
    exact ⟨hsame, congrArg (fun timers => timers.owned? handle) htimers⟩
  timedOut := Or.inl rfl
  told := by
    simp only [World.step, World.next, List.filterMap_append]
    rfl

theorem calling_flush (tended : c.world.Tended) (flow : UInt64) : c.Calling (.flush flow) flow := by
  refine calling_of_quiet (tended.passing_flush flow) rfl rfl rfl (fun handle htimer => ?_) ?_
  · -- Whatever was pending, nothing is afterwards.
    have hnone : (c.world.engine.flush flow).2.pending flow = none := by
      rcases c.world.engine.flush_cases flow with ⟨hnone, _, hpending, _⟩ | ⟨_, _, _, hpending, _⟩
      · rw [hpending, hnone]
      · rw [hpending, if_pos rfl]
    rcases (World.timer?_eq_some_iff _ flow handle).mp htimer with ⟨p, hp, _⟩
    rw [show (c.world.engine.flush flow).2.pending flow = some p from hp] at hnone
    cases hnone
  · simp only [World.step, World.next, List.filterMap_append]
    exact List.append_nil _

/-- A delivery closes the aggregate that the expiry is for, and none if that is
    closed already. -/
theorem calling_deliver (h : c.Faithful) (tended : c.world.Tended) (hfew : c.world.FewReleases)
    (index : Nat) (expiry : Expiry) (hexpiry : c.world.expiries[index]? = some expiry) :
    c.Calling (.deliver index) expiry.flow := by
  have he := List.mem_of_getElem? hexpiry
  have pass := tended.passing_deliver hfew index expiry hexpiry
  rcases c.world.engine.expire_eq expiry with ⟨hsame, _, _⟩
  have hstep := c.world.step_deliver hexpiry
  by_cases htimer : c.world.timer? expiry.flow = some expiry.handle
  case neg =>
    rcases tended.expire_late hfew expiry he htimer with ⟨hnone, unchanged⟩
    refine calling_of_quiet pass rfl rfl ?_ (fun handle hhandle => ?_) ?_
    · simp only [timedOut, hexpiry]
      rcases hcurrent : c.current? expiry.flow with _ | o
      · rfl
      · -- What was pending is still pending.
        rcases h.exists_timer expiry.flow o hcurrent with ⟨handle, hhandle, _⟩
        rcases (c.world.timer?_eq_some_iff _ _).mp hhandle with ⟨p, hp, _⟩
        rw [← hsame, unchanged.pending, hp]
    · rw [hstep] at hhandle ⊢
      rw [World.timer?, show (c.world.next _ _).engine.pending expiry.flow = _ from
        unchanged.pending expiry.flow] at hhandle
      exact ⟨hhandle, congrArg (fun timers => timers.owned? handle) unchanged.timers⟩
    · simp only [hstep, World.next, List.filterMap_append, hnone]
      exact List.append_nil _
  rcases tended.expire_timely hfew expiry he htimer with ⟨hpending, _⟩
  have hidle : (c.world.engine.expire expiry).2.pending expiry.flow = none := by
    rw [hpending, if_pos rfl]
  rcases h.tracked expiry.flow expiry.handle htimer with ⟨o, hcurrent, tracks⟩
  have htimedOut : c.timedOut (.deliver index)
      = [⟨o, c.world.timers.now, (c.world.engine.timeOut expiry).1⟩] := by
    simp only [timedOut, hexpiry, hcurrent, ← hsame, hidle]
  have hended : (c.world.step (.deliver index)).timer? expiry.flow = none := by
    rw [hstep]
    exact Option.map_eq_none_iff.mpr hidle
  constructor
  case pass => exact pass
  case silent => rfl
  case opened =>
    intro o' ho'
    cases ho'
  case kept =>
    intro _ handle hhandle
    rw [hended] at hhandle
    cases hhandle
  case timedOut =>
    refine Or.inr ⟨_, htimedOut, hcurrent, hended, ?_⟩
    -- The expiry was put down to this aggregate, and it was not handed out early.
    rw [← h.listed, List.mem_map] at he
    rcases he with ⟨⟨_, entry⟩, hentry, rfl⟩
    rcases h.issued _ entry hentry with ⟨o', rfl, harms, hdue, _⟩
    have hcurrent' := (h.current?_iff tended hfew _ o' hentry).mpr htimer
    rw [hcurrent, Option.some.injEq] at hcurrent'
    rw [hcurrent', harms.deadline_eq]
    exact hdue
  case told =>
    rw [htimedOut]
    simp only [hstep, World.next, List.filterMap_append]
    rfl

theorem calling_refuse (tended : c.world.Tended) (store extend : Gaps) :
    c.Calling (.refuse store extend) 0 := by
  refine calling_of_quiet (tended.passing_refuse store extend 0) rfl rfl rfl
    (fun h htimer => ⟨htimer, rfl⟩) ?_
  simp only [World.step, World.next, List.append_nil]

/-- An expiry that was not handed out cannot be delivered. -/
theorem calling_deliver_of_none (tended : c.world.Tended) (index : Nat)
    (hexpiry : c.world.expiries[index]? = none) : c.Calling (.deliver index) 0 := by
  have hstep := c.world.step_deliver_of_none index hexpiry
  refine calling_of_quiet (hstep.symm ▸ tended.passing_self 0) rfl rfl ?_ ?_ ?_
  · simp only [timedOut, hexpiry]
  · rw [hstep]
    exact fun _ htimer => ⟨htimer, rfl⟩
  · rw [hstep]

end Step

section Advance

variable {c : Chronicle}

/-- What the clock hands out is put down to the aggregate whose timer it was. -/
theorem Faithful.arms_of_mem_advance (h : c.Faithful) (tended : c.world.Tended) (elapsed : Nat)
    (e : Expiry) (he : e ∈ (c.world.timers.advance elapsed).1) :
    ∃ o, c.armedFor? e.handle = some o ∧ o.Arms e ∧
      e.deadline ≤ c.world.timers.moved elapsed := by
  rcases Timers.arming?_of_mem_advance tended.sound elapsed e he with
    ⟨arming, harming, hdue, hflow, hcompletion, hdeadline⟩
  have hwaits := Timers.watch?_of_arming? _ e.handle arming harming
  rcases tended.owned e.handle (by rw [hwaits]; exact Option.some_ne_none _) with ⟨flow, htimer⟩
  have hsame := tended.eq_of_waiting flow arming.flow e.handle htimer hwaits
  rcases h.tracked flow e.handle htimer with ⟨o, _, tracks⟩
  -- The timer has not fired before, so it was armed for the aggregate.
  have harmed : o.arming = arming := by
    rcases tracks.running with harming' | hfired
    · rw [harming, Option.some.injEq] at harming'
      exact harming'.symm
    · rw [hwaits] at hfired
      cases hfired
  refine ⟨o, tracks.armedFor, ?_, hdeadline ▸ hdue⟩
  constructor
  case timer_eq => exact tracks.timer_eq
  case flow_eq => rw [tracks.flow_eq, ← hsame, hflow]
  case waits_eq => rw [harmed, hflow]
  case completion_eq => rw [harmed, hcompletion]
  case deadline_eq => rw [harmed, hdeadline]
  case counted => exact tracks.counted

/-- Moving the clock keeps the account faithful. -/
theorem Faithful.advance (h : c.Faithful) (tended : c.world.Tended) (elapsed : Nat) :
    (c.step (.advance elapsed)).Faithful := by
  have hnow : (c.step (.advance elapsed)).world.timers.now = c.world.timers.moved elapsed := rfl
  have hlater : c.world.timers.now ≤ c.world.timers.moved elapsed := by
    have hclock := h.clock
    unfold Timers.moved
    omega
  -- Nothing is opened and nothing closed.
  have hcurrent : ∀ flow, (c.step (.advance elapsed)).current? flow = c.current? flow := by
    intro flow
    rcases htimer : c.world.timer? flow with _ | handle
    · rw [h.closed flow htimer]
      exact c.current?_step_of_none _ flow htimer
    · have hpending : (c.world.engine.pending flow).isSome := by
        rw [← World.isSome_timer?, htimer]
        rfl
      exact if_pos hpending
  have htimeouts : (c.step (.advance elapsed)).timeouts = c.timeouts := List.append_nil _
  constructor
  case clock => exact Nat.min_le_right _ _
  case closed => exact c.current?_step_of_none _
  case tracked =>
    intro flow handle htimer
    rcases h.tracked flow handle htimer with ⟨o, hbefore, tracks⟩
    refine ⟨o, (hcurrent flow).trans hbefore, ?_⟩
    -- The timer runs on, or it fires now.
    rcases Timers.owned?_advance_cases tended.sound elapsed handle with hsame | ⟨e, he, rfl⟩
    · exact tracks.of_owned?_eq rfl hsame
    · exact { tracks with
        running := Or.inr (Timers.watch?_of_mem_advance tended.sound elapsed e he).2 }
  case listed =>
    simp only [step, handedOut, List.map_append, h.listed, List.map_map, Function.comp_def,
      List.map_id', World.expiries_advance]
  case issued =>
    intro e entry he
    rw [hnow]
    rcases List.mem_append.mp he with hbefore | hout
    · rcases h.issued e entry hbefore with ⟨o, hentry, harms, hdue, hfor⟩
      refine ⟨o, hentry, harms, Nat.le_trans hdue hlater, ?_⟩
      rcases hfor with harmed | hold
      · exact Or.inl harmed
      · exact Or.inr ((c.world.old_advance_iff elapsed e.handle).mpr hold)
    · rcases List.mem_map.mp hout with ⟨e', he', hsame⟩
      cases hsame
      rcases h.arms_of_mem_advance tended elapsed e he' with ⟨o, harmed, harms, hdue⟩
      exact ⟨o, harmed, harms, hdue, Or.inl harmed⟩
  case numbered =>
    intro flow o ho
    rw [hcurrent] at ho
    rw [htimeouts]
    rcases h.numbered flow o ho with ⟨hlt, hne⟩
    exact ⟨Nat.lt_succ_of_lt hlt, hne⟩
  case apart =>
    intro flow flow' o o' ho ho'
    rw [hcurrent] at ho ho'
    exact h.apart flow flow' o o' ho ho'
  case once =>
    rw [htimeouts]
    exact h.once
  case past =>
    intro t ht
    rw [htimeouts] at ht
    rcases h.past t ht with ⟨hlt, hcounted, hdue⟩
    exact ⟨Nat.lt_succ_of_lt hlt, hcounted, hdue⟩
  case told =>
    rw [htimeouts, h.told]
    simp only [step, World.step, World.next, List.filterMap_append]
    exact (List.append_nil _).symm

end Advance

/-- A step keeps the account faithful. -/
theorem Faithful.step {c : Chronicle} (h : c.Faithful) (s : Step) (tended : c.world.Tended)
    (tended' : (c.world.step s).Tended) (hfew : c.world.FewReleases) : (c.step s).Faithful := by
  cases s with
  | offer flow frame policy extras =>
      exact (calling_offer tended flow frame policy extras).faithful h tended tended'
  | flush flow => exact (calling_flush tended flow).faithful h tended tended'
  | advance elapsed => exact h.advance tended elapsed
  | deliver index =>
      rcases hexpiry : c.world.expiries[index]? with _ | expiry
      · exact (calling_deliver_of_none tended index hexpiry).faithful h tended tended'
      · exact (calling_deliver h tended hfew index expiry hexpiry).faithful h tended tended'
  | refuse store extend => exact (calling_refuse tended store extend).faithful h tended tended'

/-- The account is faithful, unless a slot was released so often that its
    generation came around. -/
theorem faithful_run (setup : Setup) (steps : List Step)
    (hfew : (World.run setup steps).FewReleases) : (run setup steps).Faithful := by
  induction steps using List.reverseRecOn with
  | nil => exact faithful_start setup
  | append_singleton steps s ih =>
      have htended' := World.tended_run setup (steps ++ [s]) hfew
      rw [World.run_concat] at hfew htended'
      have hbefore := hfew.of_step
      have hworld := world_run setup steps
      have htended := World.tended_run setup steps hbefore
      rw [← hworld] at htended htended' hbefore
      rw [run_concat]
      exact (ih (hworld ▸ hbefore)).step s htended htended' hbefore

end Chronicle

end ReceiveOffload
