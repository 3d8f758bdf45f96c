import ReceiveOffload.Proofs.WaitingTimers
import ReceiveOffload.Ticker

/-!
# What Happens When a Ticker Wakes

A wake is one call of the ticker and many steps of a run. The clock moves, every expiry
that it hands out is delivered, and with each delivery there may be calls: those that
the receiver of an aggregate makes when it is told, and those that somebody else makes
before the next expiry is dealt with. `World.wakeSteps` are these steps. A wake of a
ticker leaves the engine that they leave, if the right calls are put in, so what is
known of runs is known of wakes, and the history and the account of which aggregate is
which go through a wake step by step.

Of receivers it matters what calls they make and not why. All that is asked of one is
that it does nothing else to an engine.

`Chronicle.Underway` is what holds in the middle of a wake, with part of the queue
delivered. An aggregate that was pending when the ticker woke is pending still, or a
call closed it, or its timer did, and that only if it was due.

## Main definitions

* `OnlyCalls`: A receiver does nothing to an engine but call it.
* `World.wakeSteps`: The steps of a wake.
* `Chronicle.ClosedByCall`: One of the steps is a call that closed an aggregate.
* `Chronicle.Underway`: What holds in the middle of a wake.

## Theorems

* `Ticker.exists_wakeSteps`: A wake and its steps.
* `Chronicle.dealings_induction`: What deliveries and calls keep holds after a wake.
* `Chronicle.underway_wake`: What holds after a wake.
-/

namespace ReceiveOffload

/-- The engine after a call. -/
def Call.leaves (engine : Engine) : Call → Engine
  | offer flow frame policy extras => (engine.offer flow frame policy extras).2
  | flush flow => (engine.flush flow).2

/-- A receiver does nothing to an engine but call it. -/
def OnlyCalls {σ : Type} (receive : Delivery → σ × Engine → σ × Engine) : Prop :=
  ∀ delivery state engine, ∃ calls : List Call,
    (receive delivery (state, engine)).2 = calls.foldl Call.leaves engine

/-- Dealing with an expiry is a delivery and some calls. -/
theorem OnlyCalls.deliver {σ : Type} {receive : Delivery → σ × Engine → σ × Engine}
    (h : OnlyCalls receive) (state : σ) (engine : Engine) (e : Expiry) :
    ∃ calls : List Call, (Engine.deliver receive (state, engine) e).2
      = calls.foldl Call.leaves (engine.expire e).2 := by
  rw [Engine.deliver]
  rcases engine.expire e with ⟨_ | delivery, left⟩
  · exact ⟨[], rfl⟩
  · exact h delivery state left

/-- The steps in which expiries are dealt with, of which the first has the given number.
    There may be calls after each of them. -/
def dealings (index : Nat) : List Expiry → List (List Call) → List Step
  | [], _ => []
  | _ :: rest, calls =>
    .deliver index :: (calls.headD []).map Call.step ++ dealings (index + 1) rest calls.tail

namespace World

/-- The steps of a wake. -/
def wakeSteps (w : World) (elapsed : Nat) (calls : List (List Call)) : List Step :=
  .advance elapsed :: dealings w.expiries.length (w.timers.advance elapsed).1 calls

theorem engine_call (w : World) (call : Call) :
    (w.step call.step).engine = call.leaves w.engine := by
  cases call with
  | offer | flush => rfl

/-- Calls made one after another leave what they leave together. -/
theorem engine_calls (w : World) (calls : List Call) :
    ((calls.map Call.step).foldl step w).engine = calls.foldl Call.leaves w.engine := by
  induction calls generalizing w with
  | nil => rfl
  | cons call calls ih => rw [List.map_cons, List.foldl_cons, ih, engine_call, List.foldl_cons]

/-- Nothing but moving the clock hands expiries out. -/
theorem expiries_call (w : World) (call : Call) : (w.step call.step).expiries = w.expiries := by
  cases call with
  | offer | flush => simp [Call.step, step, next, expiries, Event.expiries]

/-- Calls on the engine hand out no expiries. -/
theorem expiries_calls (w : World) (calls : List Call) :
    ((calls.map Call.step).foldl step w).expiries = w.expiries := by
  induction calls generalizing w with
  | nil => rfl
  | cons call calls ih => rw [List.map_cons, List.foldl_cons, ih, expiries_call]

/-- The engine after a delivery and some calls. -/
theorem engine_dealing (w : World) {index : Nat} {e : Expiry} (he : w.expiries[index]? = some e)
    (calls : List Call) :
    ((.deliver index :: calls.map Call.step).foldl step w).engine
      = calls.foldl Call.leaves (w.engine.expire e).2 := by
  rw [List.foldl_cons, engine_calls, w.step_deliver he]
  rfl

theorem expiries_dealing (w : World) (index : Nat) (calls : List Call) :
    ((.deliver index :: calls.map Call.step).foldl step w).expiries = w.expiries :=
  (expiries_calls _ calls).trans (w.expiries_deliver index)

/-- The expiries from a number on, if there is a first one. -/
theorem expiries_of_drop (w : World) {index : Nat} {e : Expiry} {rest : List Expiry}
    (h : w.expiries.drop index = e :: rest) :
    w.expiries[index]? = some e ∧ w.expiries.drop (index + 1) = rest := by
  constructor
  · rw [← List.head?_drop, h, List.head?_cons]
  · rw [← List.tail_drop, h, List.tail_cons]

/-- Dealing with the expiries from a number on, and the steps in which that is done. -/
theorem exists_dealings {σ : Type} {receive : Delivery → σ × Engine → σ × Engine}
    (honly : OnlyCalls receive) (w : World) (index : Nat) (queue : List Expiry) (state : σ)
    (hqueue : w.expiries.drop index = queue) :
    ∃ calls, (Engine.deliverAll receive (state, w.engine) queue).2
      = ((dealings index queue calls).foldl step w).engine := by
  induction queue generalizing w index state with
  | nil => exact ⟨[], rfl⟩
  | cons e rest ih =>
      rcases w.expiries_of_drop hqueue with ⟨he, hrest⟩
      rcases honly.deliver state w.engine e with ⟨calls, hcalls⟩
      rcases ih ((.deliver index :: calls.map Call.step).foldl step w) (index + 1)
        (Engine.deliver receive (state, w.engine) e).1
        ((congrArg (List.drop (index + 1)) (w.expiries_dealing index calls)).trans hrest)
        with ⟨more, hmore⟩
      refine ⟨calls :: more, ?_⟩
      -- What the receiver was left with is the engine that the next delivery finds.
      rw [w.engine_dealing he, ← hcalls] at hmore
      rw [dealings, List.headD_cons, List.tail_cons, List.foldl_append, ← hmore]
      rfl

end World

/-- A wake leaves the engine that its steps leave. -/
theorem Ticker.exists_wakeSteps {σ : Type} {receive : Delivery → σ × Engine → σ × Engine}
    (honly : OnlyCalls receive) (ticker : Ticker) (instant : Nat) (w : World) (state : σ) :
    ∃ calls, (ticker.wake receive instant (state, w.engine)).2.2
      = ((w.wakeSteps (ticker.elapsed instant - ticker.advanced) calls).foldl World.step
          w).engine := by
  refine (w.step (.advance (ticker.elapsed instant - ticker.advanced))).exists_dealings honly
    w.expiries.length _ state ?_
  exact (congrArg (List.drop w.expiries.length) (w.expiries_advance _)).trans List.drop_left

namespace Chronicle

/-- What comes of steps that follow. -/
def after (c : Chronicle) (steps : List Step) : Chronicle :=
  steps.foldl step c

theorem after_append (c : Chronicle) (steps more : List Step) :
    c.after (steps ++ more) = (c.after steps).after more :=
  List.foldl_append

theorem after_concat (c : Chronicle) (steps : List Step) (s : Step) :
    c.after (steps ++ [s]) = (c.after steps).step s :=
  c.after_append steps [s]

theorem world_after (c : Chronicle) (steps : List Step) :
    (c.after steps).world = steps.foldl World.step c.world := by
  induction steps generalizing c with
  | nil => rfl
  | cons s steps ih => exact ih (c.step s)

theorem world_after_concat (c : Chronicle) (steps : List Step) (s : Step) :
    (c.after (steps ++ [s])).world = (c.after steps).world.step s := by
  rw [after_concat]
  rfl

section Induction

variable (c : Chronicle) (motive : List Step → List Expiry → Prop)

theorem calls_induction
    (hcall : ∀ done rest (call : Call), motive done rest → motive (done ++ [call.step]) rest)
    (calls : List Call) (done : List Step) (rest : List Expiry) (h : motive done rest) :
    motive (done ++ calls.map Call.step) rest := by
  induction calls generalizing done with
  | nil =>
      rw [List.map_nil, List.append_nil]
      exact h
  | cons call calls ih =>
      rw [List.map_cons, List.append_cons]
      exact ih (done ++ [call.step]) (hcall done rest call h)

/-- What a delivery keeps, with one expiry less in the queue, and what every call keeps,
    holds once the queue was dealt with. -/
theorem dealings_induction
    (hdeliver : ∀ done index e rest, (c.after done).world.expiries[index]? = some e →
      motive done (e :: rest) → motive (done ++ [.deliver index]) rest)
    (hcall : ∀ done rest (call : Call), motive done rest → motive (done ++ [call.step]) rest)
    (done : List Step) (index : Nat) (queue : List Expiry) (calls : List (List Call))
    (hqueue : (c.after done).world.expiries.drop index = queue) (h : motive done queue) :
    motive (done ++ dealings index queue calls) [] := by
  induction queue generalizing done index calls with
  | nil =>
      rw [dealings, List.append_nil]
      exact h
  | cons e rest ih =>
      rcases (c.after done).world.expiries_of_drop hqueue with ⟨he, hrest⟩
      have hdelivered := hdeliver done index e rest he h
      have hcalled := calls_induction motive hcall (calls.headD []) _ rest hdelivered
      have hlater := ih _ (index + 1) calls.tail ?_ hcalled
      · rwa [List.append_assoc, List.append_assoc] at hlater
      · -- Neither the delivery nor the calls hand anything out.
        rw [after_append, world_after, World.expiries_calls, world_after_concat,
          World.expiries_deliver]
        exact hrest

end Induction

/-- One of the steps is a call on a flow that closed its aggregate. -/
def ClosedByCall (c : Chronicle) (steps : List Step) (flow : UInt64) (o : Opening) : Prop :=
  ∃ (before : List Step) (call : Call) (rest : List Step), steps = before ++ call.step :: rest ∧
    call.flow = flow ∧ (c.after before).current? flow = some o ∧
    (c.after (before ++ [call.step])).current? flow ≠ some o

/-- The aggregates that were closed by their timers in steps that follow. -/
def timeoutsIn (c : Chronicle) (steps : List Step) : List Timeout :=
  (c.after steps).timeouts.drop c.timeouts.length

/-- What was closed by a call was so whatever follows. -/
theorem ClosedByCall.concat {c : Chronicle} {steps : List Step} {flow : UInt64} {o : Opening}
    (h : c.ClosedByCall steps flow o) (s : Step) : c.ClosedByCall (steps ++ [s]) flow o := by
  rcases h with ⟨before, call, rest, rfl, hclosed⟩
  exact ⟨before, call, rest ++ [s], by rw [List.append_assoc, List.cons_append], hclosed⟩

theorem length_timeouts_after (c : Chronicle) (steps : List Step) :
    c.timeouts.length ≤ (c.after steps).timeouts.length := by
  induction steps generalizing c with
  | nil => exact Nat.le_refl _
  | cons s steps ih =>
      refine Nat.le_trans ?_ (ih (c.step s))
      rw [step, List.length_append]
      exact Nat.le_add_right _ _

/-- Aggregates time out step by step. -/
theorem timeoutsIn_concat (c : Chronicle) (steps : List Step) (s : Step) :
    c.timeoutsIn (steps ++ [s]) = c.timeoutsIn steps ++ (c.after steps).timedOut s := by
  rw [timeoutsIn, after_concat]
  exact List.drop_append_of_le_length (c.length_timeouts_after steps)

/-- Moving the clock closes nothing. -/
theorem timeoutsIn_advance (c : Chronicle) (elapsed : Nat) :
    c.timeoutsIn [.advance elapsed] = [] :=
  List.drop_left

section Deliver

variable {c : Chronicle}

/-- Something is put down for a flow only if something is pending. -/
theorem Watched.exists_timer (h : c.Watched) {flow : UInt64} {o : Opening}
    (hcurrent : c.current? flow = some o) :
    c.world.timer? flow = some o.timer ∧ c.Watches flow o.timer o := by
  rcases htimer : c.world.timer? flow with _ | handle
  · cases (h.closed flow htimer).symm.trans hcurrent
  · rcases h.watched flow handle htimer with ⟨o', hcurrent', hwatches⟩
    cases hcurrent.symm.trans hcurrent'
    rw [hwatches.timer_eq]
    exact ⟨rfl, hwatches⟩

/-- While nothing is left to deliver, every pending aggregate has a timer that waits. -/
theorem Watched.waits (h : c.Watched) (howing : c.world.Owing []) {flow : UInt64} {o : Opening}
    (hcurrent : c.current? flow = some o) :
    c.world.timer? flow = some o.timer ∧ o.arming.flow = flow ∧ c.world.Waits o.timer o := by
  rcases h.exists_timer hcurrent with ⟨htimer, hwatches⟩
  rcases hwatches.state with hwaits | hran
  · exact ⟨htimer, hwatches.waits_eq, hwaits⟩
  · rcases howing.owed flow o.timer htimer hran.fired with ⟨_, hmem, _⟩
    cases hmem

/-- The aggregate that a delivery closes was pending, and it is the one whose timer ran
    out. It is handed out if its frame is in storage. -/
theorem Watched.timedOut_deliver (h : c.Watched) {index : Nat} {e : Expiry}
    (he : c.world.expiries[index]? = some e) (t : Timeout)
    (ht : t ∈ c.timedOut (.deliver index)) :
    t.clock = c.world.timers.now ∧ t.opening.timer = e.handle ∧
      (c.world.Backed → t.aggregate ≠ none) := by
  have hpending := (c.world.engine.expire_eq e).1 e.flow
  have hstep := c.world.deliver_cases index e he
  rw [c.world.step_deliver he] at hstep
  simp only [timedOut, he, ← hpending] at ht
  rcases hcurrent : c.current? e.flow with _ | o
  · rw [hcurrent] at ht
    cases ht
  -- The flow had an aggregate before, so it timed out exactly if it has none now.
  rcases hafter : (c.world.engine.expire e).2.pending e.flow with _ | p
  · rw [hcurrent, hafter, List.mem_singleton] at ht
    subst ht
    have htimer := (h.exists_timer hcurrent).1
    rcases hstep.2 with ⟨_, hsame⟩ | ⟨htimely, _⟩
    · -- A late delivery leaves what is pending alone.
      rw [World.timer?, ← hsame e.flow, World.next, hafter] at htimer
      cases htimer
    refine ⟨rfl, Option.some.inj (htimer.symm.trans htimely), fun hbacked => ?_⟩
    rcases (c.world.timer?_eq_some_iff _ _).mp htimely with ⟨p, hp, hhandle⟩
    rcases hbacked.closed e p hp hhandle with ⟨aggregate, hclosed, _⟩
    exact Option.ne_none_iff_exists'.mpr ⟨aggregate, hclosed⟩
  · rw [hcurrent, hafter] at ht
    cases ht

/-- If a delivery closes an aggregate, it is closed by its timer. -/
theorem Watched.deliver_closes (h : c.Watched) {index : Nat} {e : Expiry}
    (he : c.world.expiries[index]? = some e) {flow : UInt64} {o : Opening}
    (hcurrent : c.current? flow = some o)
    (hclosed : (c.step (.deliver index)).current? flow ≠ some o) :
    ∃ t ∈ c.timedOut (.deliver index), t.opening = o := by
  have hgone : (c.world.step (.deliver index)).timer? flow = none := by
    rcases htimer : (c.world.step (.deliver index)).timer? flow with _ | handle
    · rfl
    · exact absurd ((Calling.current?_kept rfl handle htimer).trans hcurrent) hclosed
  have htimer := (h.exists_timer hcurrent).1
  rcases (c.world.deliver_cases index e he).2 with ⟨_, hsame⟩ | ⟨_, hpending⟩
  · rw [World.timer?, hsame] at hgone
    cases htimer.symm.trans hgone
  by_cases hflow : flow = e.flow
  · subst hflow
    have hidle : (c.world.engine.timeOut e).2.pending e.flow = none := by
      rw [← (c.world.engine.expire_eq e).1]
      have hnone := (hpending e.flow).trans (if_pos rfl)
      rwa [c.world.step_deliver he] at hnone
    refine ⟨⟨o, c.world.timers.now, (c.world.engine.timeOut e).1⟩, ?_, rfl⟩
    simp only [timedOut, he, hcurrent, hidle, List.mem_singleton]
  · rw [World.timer?, hpending, if_neg hflow] at hgone
    cases htimer.symm.trans hgone

end Deliver

/-- What holds in the middle of a wake. -/
structure Underway (c : Chronicle) (elapsed : Nat) (done : List Step) (queue : List Expiry) :
    Prop where
  watched : (c.after done).Watched
  owing : (c.after done).world.Owing queue
  clock : (c.after done).world.timers.now = c.world.timers.moved elapsed
  /-- What was delivered and what is still in the queue is what the clock handed out. -/
  delivered : ∃ events, (c.after done).world.history
      = c.world.history ++ .ranOut (c.world.timers.advance elapsed).1 :: events ∧
    events.filterMap Event.delivery? ++ queue = (c.world.timers.advance elapsed).1
  due : ∀ t ∈ c.timeoutsIn done, t.clock = c.world.timers.moved elapsed ∧
    ∀ flow, c.current? flow = some t.opening →
      t.opening.arming.deadline ≤ c.world.timers.moved elapsed
  /-- No aggregate is lost, as long as frames have identifiers of their own. -/
  closed : (c.after done).world.stores < 2 ^ 64 → ∀ t ∈ c.timeoutsIn done, t.aggregate ≠ none
  fate : ∀ flow o, c.current? flow = some o →
    (c.after done).current? flow = some o ∨ c.ClosedByCall done flow o ∨
      ∃ t ∈ c.timeoutsIn done, t.opening = o

/-- A call leaves the aggregates of other flows alone. -/
theorem Watched.current?_call_of_ne {c : Chronicle} (h : c.Watched) (call : Call)
    {flow : UInt64} (hflow : flow ≠ call.flow) {o : Opening}
    (hcurrent : c.current? flow = some o) : (c.step call.step).current? flow = some o := by
  have htimer := (h.exists_timer hcurrent).1
  rw [← (h.hands_call call).others flow hflow] at htimer
  refine (c.current?_step_of_ne call.step htimer fun o' ho' heq => ?_).trans hcurrent
  exact hflow (heq.symm.trans (h.watches_opened call o' ho').1)

section Wake

variable {c : Chronicle} {elapsed : Nat}

/-- The expiries that the clock hands out when it is moved are for timers that were due. -/
theorem Watched.deadline_le (h : c.Watched) (howing : c.world.Owing []) {flow : UInt64}
    {o : Opening} (hcurrent : c.current? flow = some o) {e : Expiry}
    (he : e ∈ (c.world.timers.advance elapsed).1) (htimer : o.timer = e.handle) :
    o.arming.deadline ≤ c.world.timers.moved elapsed := by
  have harmed := (h.waits howing hcurrent).2.2.arming
  rcases Timers.arming?_of_mem_advance h.sound elapsed e he with ⟨arming, harming, hdue, _⟩
  rw [← htimer, harmed, Option.some.injEq] at harming
  exact harming ▸ hdue

/-- When the clock was moved, nothing was delivered. -/
theorem Watched.underway_advance (h : c.Watched) (howing : c.world.Owing []) :
    c.Underway elapsed [.advance elapsed] (c.world.timers.advance elapsed).1 where
  watched := h.advance elapsed
  owing := h.owing_advance howing elapsed
  clock := rfl
  delivered := ⟨[], rfl, rfl⟩
  due := by
    rw [timeoutsIn_advance]
    exact fun _ ht => nomatch ht
  closed := by
    rw [timeoutsIn_advance]
    exact fun _ _ ht => nomatch ht
  fate := by
    intro flow o hcurrent
    have htimer := (h.exists_timer hcurrent).1
    exact Or.inl ((Calling.current?_kept (s := .advance elapsed) rfl o.timer htimer).trans hcurrent)

/-- A call in the middle of a wake. -/
theorem Underway.call {done : List Step} {queue : List Expiry}
    (h : c.Underway elapsed done queue) (call : Call) :
    c.Underway elapsed (done ++ [call.step]) queue := by
  have htimeouts : c.timeoutsIn (done ++ [call.step]) = c.timeoutsIn done := by
    rw [timeoutsIn_concat]
    cases call with
    | offer | flush => exact List.append_nil _
  constructor
  case watched =>
    rw [after_concat]
    exact h.watched.call call
  case owing =>
    rw [world_after_concat]
    exact h.owing.call h.watched call
  case clock =>
    rw [world_after_concat]
    exact (h.watched.hands_call call).handover.now.trans h.clock
  case delivered =>
    rcases h.delivered with ⟨events, hhistory, hevents⟩
    refine ⟨events ++ [call.event ((c.after done).world.output call)], ?_, ?_⟩
    · rw [world_after_concat, World.step_call, World.next, hhistory, List.append_assoc,
        List.cons_append]
    · rw [List.filterMap_append, ← hevents]
      cases call with
      | offer | flush => exact congrArg (· ++ queue) (List.append_nil _)
  case due =>
    rw [htimeouts]
    exact h.due
  case closed =>
    rw [htimeouts, world_after_concat]
    exact fun hstores => h.closed (Nat.lt_of_le_of_lt (World.stores_le_step _ _) hstores)
  case fate =>
    intro flow o hcurrent
    rw [htimeouts]
    rcases h.fate flow o hcurrent with hopen | hclosed | htimeout
    · by_cases hkept : (c.after (done ++ [call.step])).current? flow = some o
      · exact Or.inl hkept
      -- Only a call on the flow itself closes anything on it.
      refine Or.inr (Or.inl ⟨done, call, [], rfl, ?_, hopen, hkept⟩)
      by_contra hflow
      rw [after_concat] at hkept
      exact hkept (h.watched.current?_call_of_ne call (Ne.symm hflow) hopen)
    · exact Or.inr (Or.inl (hclosed.concat call.step))
    · exact Or.inr (Or.inr htimeout)

/-- A delivery in the middle of a wake. -/
theorem Underway.deliver (h : c.Watched) (howing : c.world.Owing []) {done : List Step}
    {index : Nat} {e : Expiry} {rest : List Expiry}
    (he : (c.after done).world.expiries[index]? = some e)
    (hbacked : (c.after done).world.stores < 2 ^ 64 → (c.after done).world.Backed)
    (underway : c.Underway elapsed done (e :: rest)) :
    c.Underway elapsed (done ++ [.deliver index]) rest := by
  -- The expiry is one of those that were handed out when the wake began.
  have hqueue : e ∈ (c.world.timers.advance elapsed).1 := by
    rcases underway.delivered with ⟨events, _, hevents⟩
    rw [← hevents]
    exact List.mem_append_right _ List.mem_cons_self
  have htimeouts := c.timeoutsIn_concat done (.deliver index)
  constructor
  case watched =>
    rw [after_concat]
    exact underway.watched.deliver index e he
      (underway.owing.sole e (Or.inl List.mem_cons_self))
  case owing =>
    rw [world_after_concat, ← List.erase_cons_head e rest]
    exact underway.owing.deliver index e he
  case clock =>
    rw [world_after_concat, ((c.after done).world.deliver_cases index e he).1,
      Timers.now_acknowledge]
    exact underway.clock
  case delivered =>
    rcases underway.delivered with ⟨events, hhistory, hevents⟩
    refine ⟨events ++ [.delivered e ((c.after done).world.engine.timeOut e).1], ?_, ?_⟩
    · rw [world_after_concat, World.step_deliver _ he, World.next, hhistory,
        List.append_assoc, List.cons_append]
    · rw [← hevents, List.filterMap_append, List.append_assoc]
      rfl
  case due =>
    intro t ht
    rw [htimeouts, List.mem_append] at ht
    rcases ht with hbefore | hnow
    · exact underway.due t hbefore
    · rcases underway.watched.timedOut_deliver he t hnow with ⟨hclock, htimer, _⟩
      exact ⟨hclock.trans underway.clock,
        fun flow hcurrent => h.deadline_le howing hcurrent hqueue htimer⟩
  case closed =>
    intro hstores t ht
    rw [world_after_concat] at hstores
    have hbefore := Nat.lt_of_le_of_lt (World.stores_le_step _ _) hstores
    rw [htimeouts, List.mem_append] at ht
    rcases ht with hold | hnow
    · exact underway.closed hbefore t hold
    · exact (underway.watched.timedOut_deliver he t hnow).2.2 (hbacked hbefore)
  case fate =>
    intro flow o hcurrent
    rw [htimeouts, after_concat]
    rcases underway.fate flow o hcurrent with hopen | hclosed | ⟨t, ht, heq⟩
    · by_cases hkept : ((c.after done).step (.deliver index)).current? flow = some o
      · exact Or.inl hkept
      rcases underway.watched.deliver_closes he hopen hkept with ⟨t, ht, heq⟩
      exact Or.inr (Or.inr ⟨t, List.mem_append_right _ ht, heq⟩)
    · exact Or.inr (Or.inl (hclosed.concat _))
    · exact Or.inr (Or.inr ⟨t, List.mem_append_left _ ht, heq⟩)

/-- What holds after a wake, if nothing was left to deliver before it. -/
theorem underway_wake (h : c.Watched) (howing : c.world.Owing [])
    (hbacked : ∀ steps, (c.after steps).world.stores < 2 ^ 64 → (c.after steps).world.Backed)
    (elapsed : Nat) (calls : List (List Call)) :
    c.Underway elapsed (c.world.wakeSteps elapsed calls) [] := by
  refine c.dealings_induction (c.Underway elapsed) ?_ ?_ [.advance elapsed] c.world.expiries.length
    (c.world.timers.advance elapsed).1 calls ?_ (h.underway_advance howing)
  · exact fun done index e rest he => Underway.deliver h howing he (hbacked done)
  · exact fun done rest call underway => underway.call call
  · exact (congrArg (List.drop c.world.expiries.length)
      (c.world.expiries_advance elapsed)).trans List.drop_left

end Wake

end Chronicle

end ReceiveOffload
