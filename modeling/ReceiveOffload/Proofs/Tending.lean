import Mathlib.Data.List.Induction
import ReceiveOffload.Proofs.Handover
import ReceiveOffload.Proofs.Run

/-!
# Every Timer Has an Aggregate

A timer that is taken is the timer of a pending aggregate, and every pending
aggregate has one. `World.Tended` says so for all flows at once, together with
what has to be known of expiries to keep it that way.

An expiry that was handed out is of one of two kinds. Either its timer has fired
and belongs to the flow that the expiry names, or its handle is old: the slot
was released since. Only the first kind closes an aggregate, and then it becomes
the second. Delivering an old one finds nothing to close and, since the
generation no longer fits, nothing to release.

For the last step a generation must not come around again. The world knows how
often a slot was released, and so long as that is less than a word can hold, an
old handle has not the generation of its slot.

A step that does not move the clock hands the timer of one flow on, and that is
all that the invariant needs to know of it.

## Main definitions

* `World.Old`: The slot of a handle was released since.
* `World.Tended`: The timers that are taken are those of the pending aggregates.
* `World.Passing`: A step passes the timer of one flow on.

## Theorems

* `Tended.expire_late`, `Tended.expire_timely`: An expiry changes nothing, or it
  closes the aggregate of its flow.
* `Tended.step`: A step moves the clock or passes a timer on.
* `World.tended_run`: The invariant holds of every run with few releases.
* `World.releases_le_run`, `World.fewReleases_run`: How many releases there can be.
-/

namespace ReceiveOffload

namespace World

/-- The timers of a world. -/
def timers (w : World) : Timers :=
  w.engine.services.timers

/-- The timer of the aggregate that is pending on a flow. -/
def timer? (w : World) (flow : UInt64) : Option TimerId :=
  (w.engine.pending flow).map Pending.timer

theorem timer?_eq_some_iff (w : World) (flow : UInt64) (h : TimerId) :
    w.timer? flow = some h ↔ ∃ p, w.engine.pending flow = some p ∧ p.timer = h :=
  Option.map_eq_some_iff

theorem isSome_timer? (w : World) (flow : UInt64) :
    (w.timer? flow).isSome = (w.engine.pending flow).isSome :=
  Option.isSome_map

/-- The slot of the handle was released since it was armed under it. -/
def Old (w : World) (h : TimerId) : Prop :=
  ∃ n < w.releases h.pool h.slot, h.generation = UInt32.ofNat n

/-- No slot was released so often that its generation came around. -/
def FewReleases (w : World) : Prop :=
  ∀ pool slot, w.releases pool slot < 2 ^ 32

/-- The timers that are taken are those of the pending aggregates, and expiries
    are for these or come late. -/
structure Tended (w : World) : Prop where
  sound : w.timers.Sound
  counted : ∀ pool slot, w.generation pool slot = UInt32.ofNat (w.releases pool slot)
  /-- The timer of an aggregate waits for its flow, or it has fired and the
      expiry was handed out. -/
  runs : ∀ flow h, w.timer? flow = some h → w.timers.watch? h = some (.waiting flow) ∨
    (w.timers.watch? h = some .fired ∧ ∃ e ∈ w.expiries, e.handle = h ∧ e.flow = flow)
  owned : ∀ h, w.timers.watch? h ≠ none → ∃ flow, w.timer? flow = some h
  apart : ∀ flow flow' h, w.timer? flow = some h → w.timer? flow' = some h → flow = flow'
  issued : ∀ e ∈ w.expiries,
    (w.timers.watch? e.handle = some .fired ∧ w.timer? e.flow = some e.handle) ∨ w.Old e.handle
  past : ∀ e ∈ w.deliveries, w.Old e.handle

namespace Tended

variable {w : World}

/-- The timer of an aggregate is taken. -/
theorem watch?_ne_none (h : w.Tended) (flow : UInt64) (handle : TimerId)
    (hflow : w.timer? flow = some handle) : w.timers.watch? handle ≠ none := by
  rcases h.runs flow handle hflow with hwatch | ⟨hwatch, _⟩
  · rw [hwatch]
    exact Option.some_ne_none _
  · rw [hwatch]
    exact Option.some_ne_none _

/-- A timer that waits does so for the flow whose timer it is. -/
theorem eq_of_waiting (h : w.Tended) (flow g : UInt64) (handle : TimerId)
    (hflow : w.timer? flow = some handle) (hwaits : w.timers.watch? handle = some (.waiting g)) :
    g = flow := by
  rcases h.runs flow handle hflow with hwatch | ⟨hfired, _⟩
  · rw [hwaits, Option.some.injEq, Watch.waiting.injEq] at hwatch
    exact hwatch
  · rw [hwaits] at hfired
    cases hfired

/-- Nobody owns anything under an old handle. -/
theorem watch?_old (h : w.Tended) (hfew : w.FewReleases) (handle : TimerId)
    (hold : w.Old handle) : w.timers.watch? handle = none := by
  rcases hold with ⟨n, hlt, hgeneration⟩
  exact w.timers.watch?_of_older handle n _ hgeneration (h.counted handle.pool handle.slot) hlt
    (hfew handle.pool handle.slot)

end Tended

/-- A step passes the timer of one flow on and leaves the others alone. What it
    delivers is late, or its timer was given up. -/
structure Passing (w w' : World) (flow : UInt64) : Prop where
  handover : Timers.Handover 2 flow w.timers w'.timers (w.timer? flow) (w'.timer? flow)
  others : ∀ g, g ≠ flow → w'.timer? g = w.timer? g
  releases : ∀ pool slot, w'.releases pool slot = w.releases pool slot
    + (w'.generation pool slot - w.generation pool slot).toNat
  expiries : w'.expiries = w.expiries
  deliveries : ∀ e ∈ w'.deliveries, e ∈ w.deliveries ∨ w.Old e.handle ∨
    (w.timer? flow = some e.handle ∧ w'.timer? flow ≠ some e.handle)

namespace Passing

variable {w w' : World} {flow : UInt64}

theorem releases_le (pass : w.Passing w' flow) (pool slot : Nat) :
    w.releases pool slot ≤ w'.releases pool slot ∧
      w'.releases pool slot ≤ w.releases pool slot + 2 := by
  rcases pass.handover.raised pool slot with ⟨k, hk, hraised⟩
  have hdifference : (w'.generation pool slot - w.generation pool slot).toNat = k := by
    rw [show w'.generation pool slot = _ from hraised]
    exact Timers.toNat_add_ofNat_sub (w.generation pool slot) k (by omega)
  rw [pass.releases, hdifference]
  omega

theorem old (pass : w.Passing w' flow) (h : TimerId) (hold : w.Old h) : w'.Old h := by
  rcases hold with ⟨n, hlt, hgeneration⟩
  exact ⟨n, Nat.lt_of_lt_of_le hlt (pass.releases_le h.pool h.slot).1, hgeneration⟩

/-- The handle of a timer that was given up is old. -/
theorem old_of_ended (pass : w.Passing w' flow) (tended : w.Tended) (h : TimerId)
    (hold : w.timer? flow = some h) (hnew : w'.timer? flow ≠ some h) : w'.Old h := by
  have hslot := w.timers.generation_of_watch? h (tended.watch?_ne_none flow h hold)
  have hcounted := tended.counted h.pool h.slot
  rcases pass.handover.ended h hold hnew with ⟨k, hpos, hk, hended⟩
  refine ⟨w.releases h.pool h.slot, ?_, ?_⟩
  · have hdifference : (w'.generation h.pool h.slot - w.generation h.pool h.slot).toNat = k := by
      rw [show w'.generation h.pool h.slot = _ from hended,
        show w.generation h.pool h.slot = _ from hslot]
      exact Timers.toNat_add_ofNat_sub h.generation k (by omega)
    rw [pass.releases, hdifference]
    omega
  · rw [← hcounted]
    exact hslot.symm

/-- A handle of another flow is not the one that was passed on. -/
theorem watch?_other (pass : w.Passing w' flow) (tended : w.Tended) (g : UInt64) (hg : g ≠ flow)
    (h : TimerId) (htimer : w.timer? g = some h) :
    w'.timers.watch? h = w.timers.watch? h ∧ w'.timer? flow ≠ some h := by
  have howned := tended.watch?_ne_none g h htimer
  have hold : w.timer? flow ≠ some h := fun hflow => hg (tended.apart g flow h htimer hflow)
  have hnew : w'.timer? flow ≠ some h := by
    intro hflow
    rcases pass.handover.runs h hflow with ⟨hkept, _⟩ | ⟨hnone, _⟩
    · exact hold hkept
    · exact howned hnone
  exact ⟨pass.handover.elsewhere h hold hnew, hnew⟩

/-- Passing a timer on keeps the timers tended. -/
theorem tended (pass : w.Passing w' flow) (h : w.Tended) : w'.Tended := by
  constructor
  case sound => exact pass.handover.sound
  case counted =>
    intro pool slot
    rw [pass.releases, UInt32.ofNat_add, ← h.counted, UInt32.ofNat_toNat, UInt32.add_comm,
      UInt32.sub_add_cancel]
  case runs =>
    intro g handle hg
    rw [pass.expiries]
    -- A new timer waits. Any other does what it did, and so does that of another
    -- flow.
    by_cases hflow : g = flow
    · subst hflow
      rcases pass.handover.runs handle hg with ⟨hkept, hsame⟩ | ⟨_, hwaits⟩
      · rw [hsame]
        exact h.runs g handle hkept
      · exact Or.inl hwaits
    · rw [pass.others g hflow] at hg
      rw [(pass.watch?_other h g hflow handle hg).1]
      exact h.runs g handle hg
  case owned =>
    intro handle hwatch
    -- What is owned is the flow's new timer, or it was owned by another flow. The
    -- one that was given up is owned by nobody.
    by_cases hnew : w'.timer? flow = some handle
    · exact ⟨flow, hnew⟩
    by_cases hold : w.timer? flow = some handle
    · exact absurd (pass.handover.watch?_ended (by decide) handle hold hnew) hwatch
    · rw [pass.handover.elsewhere handle hold hnew] at hwatch
      rcases h.owned handle hwatch with ⟨g, hg⟩
      have hother : g ≠ flow := fun heq => hold (heq ▸ hg)
      exact ⟨g, (pass.others g hother).trans hg⟩
  case apart =>
    -- The new timer was nobody's, so no other flow has it.
    have hnever : ∀ g handle, g ≠ flow → w'.timer? g = some handle →
        w'.timer? flow ≠ some handle := by
      intro g handle hg htimer
      rw [pass.others g hg] at htimer
      exact (pass.watch?_other h g hg handle htimer).2
    intro g g' handle hg hg'
    by_cases hflow : g = flow <;> by_cases hflow' : g' = flow
    · rw [hflow, hflow']
    · exact absurd (hflow ▸ hg) (hnever g' handle hflow' hg')
    · exact absurd (hflow' ▸ hg') (hnever g handle hflow hg)
    · rw [pass.others g hflow] at hg
      rw [pass.others g' hflow'] at hg'
      exact h.apart g g' handle hg hg'
  case issued =>
    intro e he
    rw [pass.expiries] at he
    -- An expiry stays with its timer as long as the flow keeps it. A timer that has
    -- fired is not passed on, only kept or given up.
    rcases h.issued e he with ⟨hfired, htimer⟩ | hold
    · by_cases hflow : e.flow = flow
      · rw [hflow] at htimer ⊢
        by_cases hnew : w'.timer? flow = some e.handle
        · rcases pass.handover.runs e.handle hnew with ⟨_, hsame⟩ | ⟨hnone, _⟩
          · exact Or.inl ⟨hsame.trans hfired, hnew⟩
          · rw [hfired] at hnone
            cases hnone
        · exact Or.inr (pass.old_of_ended h e.handle htimer hnew)
      · have hother := pass.watch?_other h e.flow hflow e.handle htimer
        exact Or.inl ⟨hother.1.trans hfired, (pass.others e.flow hflow).trans htimer⟩
    · exact Or.inr (pass.old e.handle hold)
  case past =>
    intro e he
    rcases pass.deliveries e he with hbefore | hold | ⟨hold, hnew⟩
    · exact pass.old e.handle (h.past e hbefore)
    · exact pass.old e.handle hold
    · exact pass.old_of_ended h e.handle hold hnew

end Passing

/-- What a step has to show to pass a timer on. -/
theorem passing_next (w : World) (engine : Engine) (events : List Event) (flow : UInt64)
    (handover : Timers.Handover 2 flow w.timers engine.services.timers (w.timer? flow)
      ((engine.pending flow).map Pending.timer))
    (hothers : ∀ g, g ≠ flow → engine.pending g = w.engine.pending g)
    (hexpiries : ∀ event ∈ events, event.expiries = [])
    (hdeliveries : ∀ event ∈ events, ∀ e, event.delivery? = some e → w.Old e.handle ∨
      (w.timer? flow = some e.handle ∧
        (engine.pending flow).map Pending.timer ≠ some e.handle)) :
    w.Passing (w.next engine events) flow where
  handover := handover
  others := fun g hg => congrArg (Option.map Pending.timer) (hothers g hg)
  releases := fun _ _ => rfl
  expiries := by
    -- Only moving the clock hands expiries out.
    have hnone : events.flatMap Event.expiries = [] := List.flatMap_eq_nil_iff.mpr hexpiries
    simp only [expiries, next, List.flatMap_append, hnone, List.append_nil]
  deliveries := by
    intro e he
    simp only [deliveries, next, List.filterMap_append, List.mem_append] at he
    rcases he with hbefore | hnow
    · exact Or.inl hbefore
    · rcases List.mem_filterMap.mp hnow with ⟨event, hevent, hdelivery⟩
      exact Or.inr (hdeliveries event hevent e hdelivery)

/-- An offer passes the timer of the flow on. -/
theorem Tended.passing_offer {w : World} (h : w.Tended) (flow : UInt64) (frame : Frame)
    (policy : Policy) (extras : Extras) :
    w.Passing (w.step (.offer flow frame policy extras)) flow := by
  simp only [step]
  refine passing_next w _ _ flow ?_ ?_ (by simp [Event.expiries]) (by simp [Event.delivery?])
  · -- The timer of what is pending is owned, as the call needs it to be.
    exact w.engine.offer_handover flow frame policy extras h.sound (fun p hp =>
      h.watch?_ne_none flow p.timer ((w.timer?_eq_some_iff flow p.timer).mpr ⟨p, hp, rfl⟩))
  · intro g hg
    rcases w.engine.offer_cases flow frame policy extras with
      ⟨_, hpending, _⟩ | ⟨_, _, _, hpending, _⟩
    · exact hpending g
    · rw [hpending, if_neg hg]

theorem Tended.passing_flush {w : World} (h : w.Tended) (flow : UInt64) :
    w.Passing (w.step (.flush flow)) flow := by
  simp only [step]
  rcases w.engine.flush_cases flow with
    ⟨_, _, hpending, hservices⟩ | ⟨p, hp, _, hpending, hservices⟩
  · refine passing_next w _ _ flow ?_ (fun g _ => hpending g) (by simp [Event.expiries])
      (by simp [Event.delivery?])
    rw [hservices, hpending]
    exact .kept h.sound (w.timer? flow)
  · refine passing_next w _ _ flow ?_ (fun g hg => by rw [hpending, if_neg hg])
      (by simp [Event.expiries]) (by simp [Event.delivery?])
    have htimer : w.timer? flow = some p.timer :=
      (w.timer?_eq_some_iff flow p.timer).mpr ⟨p, hp, rfl⟩
    rw [hservices, hpending, if_pos rfl, w.engine.flushed_timers flow p, htimer]
    exact (Timers.Handover.released h.sound p.timer (h.watch?_ne_none flow p.timer htimer)).mono
      (by decide)

/-- Where nothing happens, every timer stays where it is. -/
theorem Tended.passing_self {w : World} (h : w.Tended) (flow : UInt64) : w.Passing w flow where
  handover := .kept h.sound (w.timer? flow)
  others := fun _ _ => rfl
  releases := fun _ _ => by rw [UInt32.sub_self, UInt32.toNat_zero, Nat.add_zero]
  expiries := rfl
  deliveries := fun _ he => Or.inl he

theorem step_deliver (w : World) {index : Nat} {e : Expiry} (he : w.expiries[index]? = some e) :
    w.step (.deliver index)
      = w.next (w.engine.expire e).2 [.delivered e (w.engine.timeOut e).1] := by
  simp only [step, he]

/-- An expiry that was not handed out cannot be delivered. -/
theorem step_deliver_of_none (w : World) (index : Nat) (h : w.expiries[index]? = none) :
    w.step (.deliver index) = w := by
  simp only [step, h]

/-- An expiry that is not for the timer of its flow is old. -/
theorem Tended.old_of_late {w : World} (h : w.Tended) (e : Expiry) (he : e ∈ w.expiries)
    (hlate : w.timer? e.flow ≠ some e.handle) : w.Old e.handle := by
  rcases h.issued e he with ⟨_, htimer⟩ | hold
  · exact absurd htimer hlate
  · exact hold

/-- A late expiry changes nothing. Nobody owns a timer under an old handle, so
    there is none to acknowledge. -/
theorem Tended.expire_late {w : World} (h : w.Tended) (hfew : w.FewReleases) (e : Expiry)
    (he : e ∈ w.expiries) (hlate : w.timer? e.flow ≠ some e.handle) :
    (w.engine.timeOut e).1 = none ∧ w.engine.Unchanged (w.engine.expire e).2 := by
  have hunowned := h.watch?_old hfew e.handle (h.old_of_late e he hlate)
  rcases w.engine.timeOut_late e (fun p hp hsame =>
    hlate ((w.timer?_eq_some_iff _ _).mpr ⟨p, hp, hsame⟩)) with ⟨hnone, hpending, hservices⟩
  have htimers : w.timers.acknowledge e.handle = w.timers := by
    rw [Timers.acknowledge_eq, hunowned, if_neg (Option.some_ne_none _).symm]
  refine ⟨hnone, ?_⟩
  rw [w.engine.expire_of_none e hnone]
  constructor
  case pending => exact hpending
  case timers =>
    rw [hservices]
    exact htimers
  all_goals
    rw [hservices]
    rfl

/-- An expiry that is for the timer of its flow closes the aggregate, and the
    timer is given back. -/
theorem Tended.expire_timely {w : World} (h : w.Tended) (hfew : w.FewReleases) (e : Expiry)
    (he : e ∈ w.expiries) (htimer : w.timer? e.flow = some e.handle) :
    (∀ g, (w.engine.expire e).2.pending g = if g = e.flow then none else w.engine.pending g) ∧
      (w.engine.expire e).2.services.timers = w.timers.release e.handle := by
  -- The handle is not old, so its timer has fired, and acknowledging it is
  -- releasing it.
  have hfired : w.timers.watch? e.handle = some .fired := by
    rcases h.issued e he with ⟨hfired, _⟩ | hold
    · exact hfired
    · exact absurd (h.watch?_old hfew e.handle hold) (h.watch?_ne_none e.flow e.handle htimer)
  rcases (w.timer?_eq_some_iff _ _).mp htimer with ⟨p, hp, hhandle⟩
  rcases w.engine.timeOut_timely e p hp hhandle with ⟨_, hpending, hservices⟩
  rcases w.engine.expire_eq e with ⟨hsame, _, htimers⟩
  refine ⟨fun g => (hsame g).trans (hpending g), ?_⟩
  rw [htimers, hservices]
  simp only [Services.acknowledgeTimer, Engine.timedOut, Services.timers_closeAggregate,
    Services.timers_note, Services.timers_count, Timers.acknowledge_eq]
  exact if_pos hfired

/-- A delivery gives the timer back that it was for, and touches no other. -/
theorem Tended.passing_deliver {w : World} (h : w.Tended) (hfew : w.FewReleases) (index : Nat)
    (expiry : Expiry) (hexpiry : w.expiries[index]? = some expiry) :
    w.Passing (w.step (.deliver index)) expiry.flow := by
  have he := List.mem_of_getElem? hexpiry
  rw [w.step_deliver hexpiry]
  by_cases htimer : w.timer? expiry.flow = some expiry.handle
  case neg =>
    have unchanged := (h.expire_late hfew expiry he htimer).2
    refine passing_next w _ _ expiry.flow ?_ (fun g _ => unchanged.pending g)
      (by simp [Event.expiries])
      (by simp [Event.delivery?, h.old_of_late expiry he htimer])
    rw [unchanged.timers, unchanged.pending]
    exact .kept h.sound (w.timer? expiry.flow)
  · rcases h.expire_timely hfew expiry he htimer with ⟨hpending, htimers⟩
    have hnone : (w.engine.expire expiry).2.pending expiry.flow = none := by
      rw [hpending, if_pos rfl]
    refine passing_next w _ _ expiry.flow ?_
      (fun g hg => by rw [hpending, if_neg hg]) (by simp [Event.expiries])
      (by simp [Event.delivery?, htimer, hnone])
    rw [htimers, hnone, htimer]
    exact (Timers.Handover.released h.sound expiry.handle
      (h.watch?_ne_none expiry.flow expiry.handle htimer)).mono (by decide)

/-- Storage that is going to refuse frames does so without the timers. -/
theorem Tended.passing_refuse {w : World} (h : w.Tended) (store extend : Gaps) (flow : UInt64) :
    w.Passing (w.step (.refuse store extend)) flow := by
  refine passing_next w _ [] flow ?_ (fun _ _ => rfl) (by simp) (by simp)
  exact .kept h.sound (w.timer? flow)

/-- The clock releases no slot. -/
theorem releases_advance (w : World) (elapsed pool slot : Nat) :
    (w.step (.advance elapsed)).releases pool slot = w.releases pool slot := by
  simp only [step, next, generation, Timers.generation_advance, UInt32.sub_self,
    UInt32.toNat_zero, Nat.add_zero]

/-- Moving the clock makes no handle old. -/
theorem old_advance_iff (w : World) (elapsed : Nat) (handle : TimerId) :
    (w.step (.advance elapsed)).Old handle ↔ w.Old handle := by
  simp only [Old, releases_advance]

theorem expiries_advance (w : World) (elapsed : Nat) :
    (w.step (.advance elapsed)).expiries = w.expiries ++ (w.timers.advance elapsed).1 := by
  simp only [step, next, expiries, List.flatMap_append, List.flatMap_cons, Event.expiries,
    List.flatMap_nil, List.append_nil, timers]

/-- Moving the clock lets timers fire and keeps them tended. -/
theorem Tended.advance {w : World} (h : w.Tended) (elapsed : Nat) :
    (w.step (.advance elapsed)).Tended := by
  have hwatch := fun handle => Timers.watch?_advance h.sound elapsed handle
  have hhanded := fun e he => Timers.watch?_of_mem_advance h.sound elapsed e he
  have hexpiries := w.expiries_advance elapsed
  have hdeliveries : (w.step (.advance elapsed)).deliveries = w.deliveries := by
    simp [step, next, deliveries, Event.delivery?]
  have hold := w.old_advance_iff elapsed
  constructor
  case sound => exact h.sound.advance elapsed
  case counted =>
    intro pool slot
    rw [releases_advance, ← h.counted]
    exact Timers.generation_advance _ elapsed pool slot
  case runs =>
    intro flow handle htimer
    rw [hexpiries]
    -- A timer does what it did, or it fires now and is handed out now.
    rcases hwatch handle with hsame | ⟨e, he, rfl⟩
    · rw [show (w.step (.advance elapsed)).timers.watch? handle = _ from hsame]
      rcases h.runs flow handle htimer with hwaits | ⟨hfired, e, he, hhandle, hflow⟩
      · exact Or.inl hwaits
      · exact Or.inr ⟨hfired, e, List.mem_append_left _ he, hhandle, hflow⟩
    · rcases hhanded e he with ⟨hwaited, hfired⟩
      exact Or.inr ⟨hfired, e, List.mem_append_right _ he, rfl,
        h.eq_of_waiting flow e.flow e.handle htimer hwaited⟩
  case owned =>
    intro handle htaken
    rcases hwatch handle with hsame | ⟨e, he, rfl⟩
    · rw [show (w.step (.advance elapsed)).timers.watch? handle = _ from hsame] at htaken
      exact h.owned handle htaken
    · refine h.owned e.handle ?_
      rw [(hhanded e he).1]
      exact Option.some_ne_none _
  case apart => exact h.apart
  case issued =>
    intro e he
    rw [hexpiries, List.mem_append] at he
    rw [hold]
    -- An expiry from before keeps its kind. One that is handed out now is of a timer
    -- that was owned, by the flow that it waited for.
    rcases he with hbefore | hnow
    · rcases h.issued e hbefore with ⟨hfired, htimer⟩ | holdBefore
      · refine Or.inl ⟨?_, htimer⟩
        rcases hwatch e.handle with hsame | ⟨e', he', hhandle⟩
        · exact hsame.trans hfired
        · rw [← hhandle]
          exact (hhanded e' he').2
      · exact Or.inr holdBefore
    · rcases hhanded e hnow with ⟨hwaited, hfired⟩
      refine Or.inl ⟨hfired, ?_⟩
      rcases h.owned e.handle (by rw [hwaited]; exact Option.some_ne_none _) with ⟨flow, htimer⟩
      rw [h.eq_of_waiting flow e.flow e.handle htimer hwaited]
      exact htimer
  case past =>
    intro e he
    rw [hdeliveries] at he
    exact (hold e.handle).mpr (h.past e he)

/-- Every step keeps the timers tended and releases no slot more than twice. -/
theorem Tended.step {w : World} (h : w.Tended) (hfew : w.FewReleases) (s : Step) :
    (w.step s).Tended ∧
      ∀ pool slot, (w.step s).releases pool slot ≤ w.releases pool slot + 2 := by
  -- All steps but one pass a timer on, and what follows from that is the same.
  have hpassed : ∀ flow, w.Passing (w.step s) flow → (w.step s).Tended ∧
      ∀ pool slot, (w.step s).releases pool slot ≤ w.releases pool slot + 2 :=
    fun _ pass => ⟨pass.tended h, fun pool slot => (pass.releases_le pool slot).2⟩
  cases s with
  | offer flow frame policy extras => exact hpassed flow (h.passing_offer flow frame policy extras)
  | flush flow => exact hpassed flow (h.passing_flush flow)
  | advance elapsed =>
      refine ⟨h.advance elapsed, fun pool slot => ?_⟩
      rw [releases_advance]
      exact Nat.le_add_right _ 2
  | deliver index =>
      rcases hexpiry : w.expiries[index]? with _ | expiry
      · exact hpassed 0 ((w.step_deliver_of_none index hexpiry).symm ▸ h.passing_self 0)
      · exact hpassed expiry.flow (h.passing_deliver hfew index expiry hexpiry)
  | refuse store extend => exact hpassed 0 (h.passing_refuse store extend 0)

theorem tended_start (setup : Setup) : (start setup).Tended := by
  have hnone : ∀ h, (start setup).timers.watch? h = none := Timers.watch?_ofPools setup.pools
  constructor
  case sound => exact (Timers.sound_ofPools setup.pools).1
  case counted => exact Timers.generation_ofPools setup.pools
  case runs =>
    intro flow h htimer
    cases htimer
  case owned => exact fun h hwatch => absurd (hnone h) hwatch
  case apart =>
    intro flow flow' h htimer
    cases htimer
  case issued => exact fun e he => absurd he List.not_mem_nil
  case past => exact fun e he => absurd he List.not_mem_nil

/-- Releases are never taken back, so a run with few of them had few all along. -/
theorem FewReleases.of_step {w : World} {s : Step} (h : (w.step s).FewReleases) :
    w.FewReleases :=
  fun pool slot => Nat.lt_of_le_of_lt (releases_le_step w s pool slot) (h pool slot)

/-- Whatever happens, the timers are tended, unless a slot was released so often
    that its generation came around. -/
theorem tended_run (setup : Setup) (steps : List Step) (hfew : (run setup steps).FewReleases) :
    (run setup steps).Tended := by
  refine run_induction setup steps (fun w => w.FewReleases → w.Tended)
    (fun _ => tended_start setup) ?_ hfew
  intro w s hw hafter
  exact ((hw hafter.of_step).step hafter.of_step s).1

/-- A run has no more releases of a slot than twice its steps, so it takes a
    very long one for a generation to come around. -/
theorem releases_le_run (setup : Setup) (steps : List Step) (hshort : 2 * steps.length < 2 ^ 32)
    (pool slot : Nat) : (run setup steps).releases pool slot ≤ 2 * steps.length := by
  induction steps using List.reverseRecOn generalizing pool slot with
  | nil => exact Nat.zero_le _
  | append_singleton steps s ih =>
      rw [List.length_append, List.length_singleton] at hshort ⊢
      have hbefore := ih (by omega)
      -- The bound for the run so far is what makes the next step tended.
      have hfew : (run setup steps).FewReleases := fun pool slot =>
        Nat.lt_of_le_of_lt (hbefore pool slot) (by omega)
      have hstep := ((tended_run setup steps hfew).step hfew s).2 pool slot
      have hsoFar := hbefore pool slot
      rw [run_concat]
      omega

theorem fewReleases_run (setup : Setup) (steps : List Step) (hshort : 2 * steps.length < 2 ^ 32) :
    (run setup steps).FewReleases :=
  fun pool slot => Nat.lt_of_le_of_lt (releases_le_run setup steps hshort pool slot) hshort

end World

end ReceiveOffload
