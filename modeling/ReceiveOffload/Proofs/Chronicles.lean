import ReceiveOffload.Proofs.Tending

/-!
# Which Aggregate an Expiry Is For

An expiry names a flow and a handle. Neither says which aggregate its timer was
armed for. A flow opens one aggregate after the other, and a timer that is
started over goes from one to the next under the same handle. A chronicle keeps
the account that the engine does not keep. Aggregates are known by the number of
the step that opened them, each timer is put down to the aggregate for which it
was armed or started over last, and every expiry is put down, when the clock hands
it out, to the aggregate that its timer was armed for.

What makes the account a faithful one is that the timer of a pending aggregate
was armed for that aggregate, by the call that opened it, and not since. So its
deadline is counted from there, and an expiry under its handle, unless the slot
was released since, is for no other aggregate.

## Main definitions

* `Opening`: An aggregate as it was opened.
* `Opening.InRange`: The clock can show when its time is over.
* `Timeout`: An aggregate that was closed by its timer.
* `Chronicle`: A world, and which of its aggregates is which.
* `Chronicle.run`: What a list of steps comes to.
* `Chronicle.Faithful`: The account agrees with the world.

## Theorems

* `Chronicle.world_run`: Keeping account changes nothing.
* `Chronicle.Faithful.current?_iff`: The aggregate that an expiry is for is
  pending exactly if its timer is that of the flow.
-/

namespace ReceiveOffload

/-- An aggregate as it was opened. -/
structure Opening where
  /-- How many steps there were before. -/
  number : Nat
  flow : UInt64
  timer : TimerId
  /-- What the clock showed. -/
  clock : Nat
  /-- What the timer waited for after the call, armed or started over by it. -/
  arming : Arming
  deriving DecidableEq, Repr

/-- The clock can show when the time of the aggregate is over. -/
def Opening.InRange (o : Opening) : Prop :=
  o.clock + o.arming.duration ≤ lastInstant

/-- When the aggregate is opened, a deadline that the clock can show is still ahead. -/
theorem Opening.InRange.lt_deadline {o : Opening} (h : o.InRange)
    (hcounted : o.arming.deadline = instantAfter o.clock o.arming.duration)
    (hlasts : 0 < o.arming.duration) : o.clock < o.arming.deadline := by
  rw [hcounted, instantAfter_of_le h]
  exact Nat.lt_add_of_pos_right hlasts

/-- An aggregate that was closed by its timer, unless it was lost. -/
structure Timeout where
  opening : Opening
  /-- What the clock showed then. -/
  clock : Nat
  aggregate : Option Aggregate
  deriving DecidableEq, Repr

/-- The aggregate that a delivery closed. -/
def Event.timedOut? : Event → Option Aggregate
  | .delivered _ aggregate => aggregate
  | _ => none

/-- A world, and which of its aggregates is which. -/
structure Chronicle where
  world : World
  steps : Nat := 0
  /-- The aggregate that is pending on a flow. -/
  current? : UInt64 → Option Opening := fun _ => none
  /-- The aggregate for which the timer under a handle was armed or started over
      last. -/
  armedFor? : TimerId → Option Opening := fun _ => none
  /-- The expiries that were handed out, each with the aggregate for which its
      timer was armed. -/
  issued : List (Expiry × Option Opening) := []
  /-- The aggregates that were closed by their timers. -/
  timeouts : List Timeout := []

namespace Chronicle

/-- The aggregate that a step opens: its call says so, and it left one pending
    with a timer that is armed. -/
def opening? (c : Chronicle) : Step → Option Opening
  | .offer flow frame policy extras =>
    let (output, engine) := c.world.engine.offer flow frame policy extras
    if output.disposition.newAggregationStarted then
      (engine.pending flow).bind fun p =>
        (engine.services.timers.arming? p.timer).map fun arming =>
          ⟨c.steps, flow, p.timer, engine.services.timers.now, arming⟩
    else none
  | _ => none

/-- The expiries that a step hands out. -/
def handedOut (c : Chronicle) : Step → List (Expiry × Option Opening)
  | .advance elapsed =>
    (c.world.timers.advance elapsed).1.map fun expiry => (expiry, c.armedFor? expiry.handle)
  | _ => []

/-- The aggregate that a step closes by its timer: there was one, and after the
    delivery there is none. -/
def timedOut (c : Chronicle) : Step → List Timeout
  | .deliver index =>
    match c.world.expiries[index]? with
    | none => []
    | some expiry =>
      let (aggregate, engine) := c.world.engine.timeOut expiry
      match c.current? expiry.flow, engine.pending expiry.flow with
      | some opening, none => [⟨opening, c.world.timers.now, aggregate⟩]
      | _, _ => []
  | _ => []

/-- What a step comes to. -/
def step (c : Chronicle) (s : Step) : Chronicle where
  world := c.world.step s
  steps := c.steps + 1
  current? flow :=
    if ((c.world.step s).engine.pending flow).isSome then
      ((c.opening? s).filter fun opening => opening.flow = flow).or (c.current? flow)
    else none
  armedFor? handle :=
    ((c.opening? s).filter fun opening => opening.timer = handle).or (c.armedFor? handle)
  issued := c.issued ++ c.handedOut s
  timeouts := c.timeouts ++ c.timedOut s

/-- What a list of steps comes to. -/
def run (setup : Setup) (steps : List Step) : Chronicle :=
  steps.foldl step { world := .start setup }

theorem run_concat (setup : Setup) (steps : List Step) (s : Step) :
    run setup (steps ++ [s]) = (run setup steps).step s := by
  simp only [run, List.foldl_append, List.foldl_cons, List.foldl_nil]

/-- Keeping account changes nothing. -/
theorem world_run (setup : Setup) (steps : List Step) :
    (run setup steps).world = .run setup steps := by
  induction steps using List.reverseRecOn with
  | nil => rfl
  | append_singleton steps s ih =>
      rw [run_concat, World.run_concat, ← ih]
      rfl

end Chronicle

/-- The expiry is for the aggregate: it is what came of the timer as the call armed
    it that opened the aggregate. -/
structure Opening.Arms (o : Opening) (e : Expiry) : Prop where
  timer_eq : o.timer = e.handle
  flow_eq : o.flow = e.flow
  waits_eq : o.arming.flow = e.flow
  completion_eq : o.arming.completion = e.completion
  deadline_eq : o.arming.deadline = e.deadline
  /-- The time is counted from the opening. -/
  counted : o.arming.deadline = instantAfter o.clock o.arming.duration

namespace Chronicle

/-- The timer of the flow was armed for the aggregate, by the call that opened
    it. -/
structure Tracks (c : Chronicle) (flow : UInt64) (h : TimerId) (o : Opening) : Prop where
  timer_eq : o.timer = h
  flow_eq : o.flow = flow
  waits_eq : o.arming.flow = flow
  counted : o.arming.deadline = instantAfter o.clock o.arming.duration
  armedFor : c.armedFor? h = some o
  running : c.world.timers.arming? h = some o.arming ∨ c.world.timers.watch? h = some .fired

/-- A timer that does what it did stays with its aggregate, unless it is put down
    to another. -/
theorem Tracks.of_owned?_eq {c c' : Chronicle} {flow : UInt64} {h : TimerId} {o : Opening}
    (tracks : c.Tracks flow h o) (harmed : c'.armedFor? h = c.armedFor? h)
    (howned : c'.world.timers.owned? h = c.world.timers.owned? h) : c'.Tracks flow h o where
  timer_eq := tracks.timer_eq
  flow_eq := tracks.flow_eq
  waits_eq := tracks.waits_eq
  counted := tracks.counted
  armedFor := harmed.trans tracks.armedFor
  running := by
    rw [Timers.arming?_congr howned, Timers.watch?_congr howned]
    exact tracks.running

/-- The account agrees with the world. -/
structure Faithful (c : Chronicle) : Prop where
  clock : c.world.timers.now ≤ lastInstant
  closed : ∀ flow, c.world.timer? flow = none → c.current? flow = none
  tracked : ∀ flow h, c.world.timer? flow = some h →
    ∃ o, c.current? flow = some o ∧ c.Tracks flow h o
  listed : c.issued.map Prod.fst = c.world.expiries
  issued : ∀ e entry, (e, entry) ∈ c.issued → ∃ o, entry = some o ∧ o.Arms e ∧
    e.deadline ≤ c.world.timers.now ∧ (c.armedFor? e.handle = some o ∨ c.world.Old e.handle)
  /-- Every aggregate has a number of its own. -/
  numbered : ∀ flow o, c.current? flow = some o → o.number < c.steps ∧
    ∀ t ∈ c.timeouts, t.opening.number ≠ o.number
  apart : ∀ flow flow' o o', c.current? flow = some o → c.current? flow' = some o' →
    o.number = o'.number → flow = flow'
  once : (c.timeouts.map fun t => t.opening.number).Nodup
  past : ∀ t ∈ c.timeouts, t.opening.number < c.steps ∧
    t.opening.arming.deadline = instantAfter t.opening.clock t.opening.arming.duration ∧
    t.opening.arming.deadline ≤ t.clock
  told : c.timeouts.filterMap Timeout.aggregate = c.world.history.filterMap Event.timedOut?

/-- Something is put down for a flow exactly if something is pending. -/
theorem Faithful.exists_timer {c : Chronicle} (h : c.Faithful) (flow : UInt64) (o : Opening)
    (hcurrent : c.current? flow = some o) :
    ∃ handle, c.world.timer? flow = some handle ∧ c.Tracks flow handle o := by
  rcases htimer : c.world.timer? flow with _ | handle
  · rw [h.closed flow htimer] at hcurrent
    cases hcurrent
  · rcases h.tracked flow handle htimer with ⟨o', hcurrent', tracks⟩
    rw [hcurrent, Option.some.injEq] at hcurrent'
    exact ⟨handle, rfl, hcurrent' ▸ tracks⟩

/-- The aggregate that an expiry is for is pending exactly if its timer is that of
    the flow. -/
theorem Faithful.current?_iff {c : Chronicle} (h : c.Faithful) (tended : c.world.Tended)
    (hfew : c.world.FewReleases) (e : Expiry) (o : Opening) (he : (e, some o) ∈ c.issued) :
    c.current? e.flow = some o ↔ c.world.timer? e.flow = some e.handle := by
  rcases h.issued e (some o) he with ⟨_, hentry, harms, _, hfor⟩
  cases hentry
  constructor
  · intro hcurrent
    rcases h.exists_timer e.flow o hcurrent with ⟨handle, htimer, tracks⟩
    rw [htimer, ← tracks.timer_eq, harms.timer_eq]
  · intro htimer
    rcases h.tracked e.flow e.handle htimer with ⟨o', hcurrent, tracks⟩
    -- The timer is owned, so the handle is not old and was armed for one aggregate
    -- only since.
    rcases hfor with harmed | hold
    · rw [tracks.armedFor, Option.some.injEq] at harmed
      exact harmed ▸ hcurrent
    · exact absurd (tended.watch?_old hfew e.handle hold)
        (tended.watch?_ne_none e.flow e.handle htimer)

theorem faithful_start (setup : Setup) : ({ world := .start setup } : Chronicle).Faithful where
  clock := Nat.le_trans (Nat.le_of_eq (Timers.now_ofPools setup.pools)) (Nat.zero_le _)
  closed := fun _ _ => rfl
  tracked := fun _ _ htimer => by cases htimer
  listed := rfl
  issued := fun _ _ he => by cases he
  numbered := fun _ _ ho => by cases ho
  apart := fun _ _ _ _ ho => by cases ho
  once := List.nodup_nil
  past := fun _ ht => by cases ht
  told := rfl

end Chronicle

end ReceiveOffload
