import ReceiveOffload.Proofs.Attribution
import ReceiveOffload.Proofs.Books

/-!
# Expiries That Come Late

The clock hands out an expiry once, and from then on it is anybody's. It may be
delivered at once or long after, several times or never, and in the meantime its
aggregate can have been closed, its flow can have opened another one, and its
slot can have been given to another flow. What the delivery does depends on one
question: whether the aggregate that the timer was armed for is still the one
that is pending.

If it is, it is closed. That is not too early, since the expiry was not handed
out before the deadline, and it happens once, since the aggregate is gone then.
The flow is idle and the timer given back before anybody is told, so a receiver
who calls the engine again finds it as after any other call. What the receiver
does is then part of the run like everything else.

If it is not, the delivery is of no effect whatever, and nobody is told.

## Main definitions

* `World.Finalizes`: A delivery closes the aggregate of its flow.
* `World.Ignores`: A delivery changes nothing.
* `Chronicle.Timely`: A delivery does the one or the other, as the account says.

## Theorems

* `timeouts_timely`: Aggregates are closed by their own timers, at most once, and
  not before their deadlines.
-/

namespace ReceiveOffload

namespace World

/-- The delivery of an expiry changes nothing, and nobody is told. -/
structure Ignores (w : World) (e : Expiry) : Prop where
  unchanged : w.engine.Unchanged (w.engine.expire e).2
  silent : ∀ {σ : Type} (receive : Delivery → σ × Engine → σ × Engine) (state : σ),
    Engine.deliver receive (state, w.engine) e = (state, (w.engine.expire e).2)

/-- The delivery of an expiry closes the aggregate that is pending on its flow. -/
structure Finalizes (w : World) (e : Expiry) : Prop where
  idle : ∀ g, (w.engine.expire e).2.pending g
    = if g = e.flow then none else w.engine.pending g
  released : (w.engine.expire e).2.services.timers = w.timers.release e.handle
  unowned : (w.engine.expire e).2.services.timers.owned? e.handle = none
  /-- There is nothing left for anybody to close. -/
  flushed : ((w.engine.expire e).2.flush e.flow).1 = { disposition := { noAggregation := true } }
  /-- The aggregate is not lost, as long as the frames that were stored have
      identifiers of their own. -/
  closed : w.stores < 2 ^ 64 → ∃ p aggregate, w.engine.pending e.flow = some p ∧
    (w.engine.timeOut e).1 = some aggregate ∧ aggregate.segments = p.segments
  /-- The receiver, if there is one, is called once, with the engine as it is
      then. -/
  told : ∀ {σ : Type} (receive : Delivery → σ × Engine → σ × Engine) (state : σ),
    Engine.deliver receive (state, w.engine) e
      = match (w.engine.timeOut e).1, e.completion with
        | some aggregate, some completion =>
          receive ⟨e.flow, aggregate, completion⟩ (state, (w.engine.expire e).2)
        | _, _ => (state, (w.engine.expire e).2)

/-- The receiver of a completion is called once for an aggregate, and not at all
    where there is none. -/
theorem deliver_eq (w : World) (e : Expiry) {σ : Type}
    (receive : Delivery → σ × Engine → σ × Engine) (state : σ) :
    Engine.deliver receive (state, w.engine) e
      = match (w.engine.timeOut e).1, e.completion with
        | some aggregate, some completion =>
          receive ⟨e.flow, aggregate, completion⟩ (state, (w.engine.expire e).2)
        | _, _ => (state, (w.engine.expire e).2) := by
  unfold Engine.deliver Engine.expire
  rcases w.engine.timeOut e with ⟨_ | aggregate, engine⟩
  · rfl
  · rcases e.completion with _ | completion <;> rfl

/-- The aggregate whose timer ran out is handed out with all of its segments. -/
theorem Backed.closed {w : World} (h : w.Backed) (e : Expiry) (p : Pending)
    (hp : w.engine.pending e.flow = some p) (htimer : p.timer = e.handle) :
    ∃ aggregate, (w.engine.timeOut e).1 = some aggregate ∧ aggregate.segments = p.segments := by
  rcases h.held e.flow with ⟨members, hholds, _⟩
  rw [hp] at hholds
  rcases ((w.engine.services.count p.statistics .timeoutFlushes 1).note
    (.timeoutFlush e.flow p.segments)).closeAggregate_spec p (h.ready.of_frames_eq rfl)
    (hholds.of_frames_eq rfl) with ⟨aggregate, hclosed, hclosing, _⟩
  rcases hclosing.represents with ⟨first, rest, hmembers, represents⟩
  refine ⟨aggregate, (w.engine.timeOut_timely e p hp htimer).1.trans hclosed, ?_⟩
  rw [represents.segments, ← hmembers, hholds.segments_eq]

namespace Tended

variable {w : World} {e : Expiry}

/-- An expiry that is not of the pending timer does nothing. -/
theorem ignores (h : w.Tended) (hfew : w.FewReleases) (he : e ∈ w.expiries)
    (hlate : w.timer? e.flow ≠ some e.handle) : w.Ignores e := by
  rcases h.expire_late hfew e he hlate with ⟨hnone, unchanged⟩
  refine ⟨unchanged, fun receive state => ?_⟩
  rw [w.deliver_eq, hnone]

/-- An expiry of the pending timer closes the aggregate and gives the timer back. -/
theorem finalizes (h : w.Tended) (hfew : w.FewReleases) (he : e ∈ w.expiries)
    (htimer : w.timer? e.flow = some e.handle) (hbacked : w.stores < 2 ^ 64 → w.Backed) :
    w.Finalizes e := by
  rcases h.expire_timely hfew e he htimer with ⟨hpending, htimers⟩
  constructor
  case idle => exact hpending
  case released => exact htimers
  case unowned => rw [htimers, Timers.owned?_release, if_pos rfl]
  case flushed =>
    rcases (w.engine.expire e).2.flush_cases e.flow with ⟨_, houtput, _⟩ | ⟨p, hp, _⟩
    · exact houtput
    · rw [hpending, if_pos rfl] at hp
      cases hp
  case closed =>
    -- That an aggregate comes of it is up to storage, which has to have its frame still.
    intro hstores
    rcases (w.timer?_eq_some_iff _ _).mp htimer with ⟨p, hp, hhandle⟩
    rcases (hbacked hstores).closed e p hp hhandle with ⟨aggregate, hclosed, hsegments⟩
    exact ⟨p, aggregate, hp, hclosed, hsegments⟩
  case told => exact w.deliver_eq e

end Tended

end World

/-- What deliveries may do and have done, by the account of which aggregate is
    which. -/
structure Chronicle.Timely (c : Chronicle) : Prop where
  /-- The account is of what the flows have and of what the clock handed out. -/
  current : ∀ flow, (c.current? flow).map Opening.timer
    = (c.world.engine.pending flow).map Pending.timer
  listed : c.issued.map Prod.fst = c.world.expiries
  /-- Every expiry is for an aggregate, and was not handed out before its
      deadline. -/
  armed : ∀ e entry, (e, entry) ∈ c.issued → ∃ o, entry = some o ∧ o.Arms e ∧
    e.deadline ≤ c.world.timers.now
  finalizes : ∀ e o, (e, some o) ∈ c.issued → c.current? e.flow = some o → c.world.Finalizes e
  ignores : ∀ e o, (e, some o) ∈ c.issued → c.current? e.flow ≠ some o → c.world.Ignores e
  /-- The timeouts that the account has are all there were. -/
  told : c.timeouts.filterMap Timeout.aggregate = c.world.history.filterMap Event.timedOut?
  once : (c.timeouts.map fun t => t.opening.number).Nodup
  /-- An aggregate was not closed before its deadline, which is counted from its
      opening. -/
  due : ∀ t ∈ c.timeouts,
    t.opening.arming.deadline = instantAfter t.opening.clock t.opening.arming.duration ∧
    t.opening.arming.deadline ≤ t.clock
  /-- It had all of its time, if the clock can show when that is over. -/
  waited : ∀ t ∈ c.timeouts, t.opening.InRange →
    t.opening.clock + t.opening.arming.duration ≤ t.clock

/-- Whatever happens, an expiry closes the aggregate that its timer was armed for,
    if that is still pending, and otherwise nothing. An aggregate is closed by its
    timer once at most, and not before its deadline. -/
theorem timeouts_timely (setup : Setup) (steps : List Step)
    (hfew : ∀ pool slot, (World.run setup steps).releases pool slot < 2 ^ 32) :
    (Chronicle.run setup steps).world = World.run setup steps ∧
      (Chronicle.run setup steps).Timely := by
  have hworld := Chronicle.world_run setup steps
  refine ⟨hworld, ?_⟩
  have hfaithful := Chronicle.faithful_run setup steps hfew
  have htended := World.tended_run setup steps hfew
  have hbacked := World.backed_run setup steps
  change (World.run setup steps).FewReleases at hfew
  rw [← hworld] at hfew htended hbacked
  -- The account lists expiries with their openings, the world lists them alone.
  have hmember : ∀ e o, (e, some o) ∈ (Chronicle.run setup steps).issued →
      e ∈ (Chronicle.run setup steps).world.expiries := by
    intro e o he
    rw [← hfaithful.listed]
    exact List.mem_map_of_mem he
  constructor
  case current =>
    intro flow
    show _ = (Chronicle.run setup steps).world.timer? flow
    rcases htimer : (Chronicle.run setup steps).world.timer? flow with _ | handle
    · rw [hfaithful.closed flow htimer, Option.map_none]
    · rcases hfaithful.tracked flow handle htimer with ⟨o, hcurrent, tracks⟩
      rw [hcurrent, Option.map_some, tracks.timer_eq]
  case listed => exact hfaithful.listed
  case armed =>
    intro e entry he
    rcases hfaithful.issued e entry he with ⟨o, hentry, harms, hdue, _⟩
    exact ⟨o, hentry, harms, hdue⟩
  -- Whether an expiry is of the aggregate that is pending is seen by its opening here and by its
  -- timer in the world. `Faithful.current?_iff` says that it is the same.
  case finalizes =>
    intro e o he hcurrent
    exact htended.finalizes hfew (hmember e o he)
      ((hfaithful.current?_iff htended hfew e o he).mp hcurrent) hbacked
  case ignores =>
    intro e o he hother
    exact htended.ignores hfew (hmember e o he)
      (fun htimer => hother ((hfaithful.current?_iff htended hfew e o he).mpr htimer))
  case told => exact hfaithful.told
  case once => exact hfaithful.once
  case due => exact fun t ht => (hfaithful.past t ht).2
  case waited =>
    intro t ht hrange
    rcases (hfaithful.past t ht).2 with ⟨hcounted, hdue⟩
    rw [hcounted, instantAfter_of_le hrange] at hdue
    exact hdue

/-- A timer is started over for the next aggregate, fires, and is replaced for the
    one after that. Its expiry is delivered late, and the other one twice. -/
def startedOver : List Step := [
  .offer 7 (plainFrame 1 [1, 2]) plainPolicy {},
  .advance 4,
  .offer 7 (plainFrame 9 [3]) plainPolicy {},
  .advance 10,
  .offer 7 (plainFrame 20 [4]) plainPolicy {},
  .deliver 0,
  .advance 10,
  .deliver 1,
  .deliver 1
]

theorem timeouts_timely_startedOver :
    (∀ pool slot, (World.run {} startedOver).releases pool slot < 2 ^ 32) ∧
      (Chronicle.run {} startedOver).world = World.run {} startedOver ∧
      (Chronicle.run {} startedOver).Timely := by
  have hfew : ∀ pool slot, (World.run {} startedOver).releases pool slot < 2 ^ 32 := by
    intro pool slot
    have hle := World.releases_le_run {} startedOver (by decide) pool slot
    exact Nat.lt_of_le_of_lt hle (by decide)
  exact ⟨hfew, timeouts_timely {} startedOver hfew⟩

example : (Chronicle.run {} startedOver).timeouts.map
    (fun t => (t.opening.number, t.opening.clock, t.clock)) = [(4, 14, 24)] := by
  decide +kernel

end ReceiveOffload
