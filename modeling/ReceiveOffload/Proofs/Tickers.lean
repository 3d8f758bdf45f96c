import ReceiveOffload.Proofs.Wakes

/-!
# Tickers Keep Time

A ticker is woken at instants that it does not choose. They may be late, many periods
apart or less than a millisecond apart, and between them, as well as in the middle of a
wake, the engine is called. `Session` is a ticker with its engine at such a sequence of
instants, which are given by how long each is after the one before it.

A ticker remembers how many milliseconds it has passed on, and not when it was woken
last. So nothing is rounded twice: after every wake the clock has been moved by the whole
milliseconds since the ticker started, whatever was left over on the way. That number
never falls, so the ticker never takes more from it than there is, as long as it fits
64 bits. The clock itself stops at the last instant that it can show.

Between wakes nothing is left to deliver. All timers of pending aggregates wait then, and
a wake finds out which of them are due. It delivers each of these once and in the order
of deadlines, and with the last one nothing is left to deliver again. So an aggregate
that is still open when its time comes is closed by its timer in that wake, unless a call
in the middle of the wake is faster, and no earlier wake touches it. What the clock cannot
show is the exception: a deadline beyond the last instant starts over from the first, and
may be taken for one that has passed.

Only at the start has anything to be assumed of the engine. What was handed out before
must have been delivered, and no handle may have come around by then.

## Main definitions

* `Move`: What can happen while a ticker runs.
* `Session`: A ticker and its engine.
* `Session.KeepsTime`: What a wake comes to.

## Theorems

* `Session.kept_run`: Between wakes nothing is left to deliver.
* `wakes_keep_time`: No wake drifts, and none loses or repeats an expiry.
-/

namespace ReceiveOffload

/-- What can happen while a ticker runs. Nothing but a wake moves the clock. -/
inductive Move where
  | call (call : Call)
  /-- One of the expiries that were handed out so far is delivered again. -/
  | redeliver (index : Nat)
  /-- Storage is going to refuse frames and appends after these many calls. -/
  | refuse (store extend : Gaps)
  /-- The ticker is woken, so many nanoseconds after the last time. There may be calls
      after each delivery. -/
  | wake (later : Nat) (calls : List (List Call))
  deriving DecidableEq, Repr

/-- A ticker and its engine. -/
structure Session where
  ticker : Ticker
  /-- When the ticker was woken last, or when it started, in nanoseconds. -/
  instant : Nat
  chronicle : Chronicle

namespace Session

/-- The engine, and what was seen of it. -/
def world (s : Session) : World :=
  s.chronicle.world

/-- The whole milliseconds from the start to the last wake. -/
def milliseconds (s : Session) : Nat :=
  (s.instant - s.ticker.started) / nanosecondsPerMillisecond

/-- By how much the ticker advances the clock if it is woken so much later. -/
def advance (s : Session) (later : Nat) : Nat :=
  s.ticker.elapsed (s.instant + later) - s.ticker.advanced

/-- The steps of a wake. -/
def wakeSteps (s : Session) (later : Nat) (calls : List (List Call)) : List Step :=
  s.world.wakeSteps (s.advance later) calls

/-- The ticker is woken. -/
def wake (s : Session) (later : Nat) (calls : List (List Call)) : Session where
  ticker := (s.ticker.advance (s.instant + later) s.world.engine).2.1
  instant := s.instant + later
  chronicle := s.chronicle.after (s.wakeSteps later calls)

/-- What a move comes to. -/
def step (s : Session) : Move → Session
  | .call call => { s with chronicle := s.chronicle.step call.step }
  | .redeliver index => { s with chronicle := s.chronicle.step (.deliver index) }
  | .refuse store extend => { s with chronicle := s.chronicle.step (.refuse store extend) }
  | .wake later calls => s.wake later calls

/-- A ticker that starts after a run. -/
def start (setup : Setup) (before : List Step) (started : Nat) : Session where
  ticker := { started }
  instant := started
  chronicle := .run setup before

/-- What a list of moves comes to. -/
def run (setup : Setup) (before : List Step) (started : Nat) (moves : List Move) : Session :=
  moves.foldl step (start setup before started)

theorem run_concat (setup : Setup) (before : List Step) (started : Nat) (moves : List Move)
    (m : Move) :
    run setup before started (moves ++ [m]) = (run setup before started moves).step m := by
  simp only [run, List.foldl_append, List.foldl_cons, List.foldl_nil]

/-- A ticker does not start over. -/
theorem started_step (s : Session) (m : Move) :
    (s.step m).ticker.started = s.ticker.started := by
  cases m with
  | call | redeliver | refuse | wake => rfl

theorem started_run (setup : Setup) (before : List Step) (started : Nat) (moves : List Move) :
    (run setup before started moves).ticker.started = started := by
  induction moves using List.reverseRecOn with
  | nil => rfl
  | append_singleton moves m ih => rw [run_concat, started_step, ih]

theorem instant_le_step (s : Session) (m : Move) : s.instant ≤ (s.step m).instant := by
  cases m with
  | call | redeliver | refuse => exact Nat.le_refl _
  | wake later calls => exact Nat.le_add_right _ _

theorem milliseconds_wake (s : Session) (later : Nat) (calls : List (List Call)) :
    (s.wake later calls).milliseconds
      = (s.instant + later - s.ticker.started) / nanosecondsPerMillisecond := rfl

/-- Time does not go back. -/
theorem milliseconds_le_step (s : Session) (m : Move) :
    s.milliseconds ≤ (s.step m).milliseconds := by
  rw [milliseconds, milliseconds, started_step]
  exact Nat.div_le_div_right (Nat.sub_le_sub_right (s.instant_le_step m) _)

/-- Between wakes nothing is left to deliver, and the clock has been moved by what has
    passed. -/
structure Kept (s : Session) (setup : Setup) (clock : Nat) : Prop where
  reached : ∃ steps, s.chronicle = .run setup steps
  watched : s.chronicle.Watched
  owing : s.world.Owing []
  passed : s.ticker.advanced = s.milliseconds
  clock : s.world.timers.now = min (clock + s.milliseconds) lastInstant

/-- What a wake comes to, of a ticker that started when the clock showed so much. -/
structure KeepsTime (s : Session) (clock later : Nat) (calls : List (List Call)) : Prop where
  /-- The ticker advances the clock by no less than nothing. -/
  ahead : s.ticker.advanced ≤ s.ticker.elapsed (s.instant + later)
  clock : (s.wake later calls).world.timers.now
    = min (clock + (s.wake later calls).milliseconds) lastInstant
  /-- What the clock hands out is delivered, and nothing else is. -/
  delivered : ∃ events, (s.wake later calls).world.history = s.world.history ++
      .ranOut (s.world.timers.advance (s.advance later)).1 :: events ∧
    events.filterMap Event.delivery? = (s.world.timers.advance (s.advance later)).1
  once : ((s.world.timers.advance (s.advance later)).1.map Expiry.handle).Nodup
  ordered : (s.world.timers.advance (s.advance later)).1.Pairwise
    fun e e' => e.deadline ≤ e'.deadline
  /-- Afterwards the timers of all pending aggregates wait, and they are not due, if
      the clock can show when they will be. -/
  armed : ∀ flow p, (s.wake later calls).world.engine.pending flow = some p →
    ∃ o, (s.wake later calls).chronicle.current? flow = some o ∧
      (s.wake later calls).world.timers.arming? p.timer = some o.arming ∧
      o.arming.flow = flow ∧
      (o.InRange → (s.wake later calls).world.timers.now < o.arming.deadline)
  /-- The account has every aggregate that is open when the wake comes, with what its
      timer waits for. -/
  opened : ∀ flow p, s.world.engine.pending flow = some p →
    ∃ o, s.chronicle.current? flow = some o ∧ s.world.timers.arming? p.timer = some o.arming
  /-- If its deadline is reached, it is closed, and its timer does it unless a call
      does. -/
  due : ∀ flow o, s.chronicle.current? flow = some o → o.InRange →
    o.arming.deadline ≤ (s.wake later calls).world.timers.now →
    (s.wake later calls).chronicle.current? flow ≠ some o ∧
      (s.chronicle.ClosedByCall (s.wakeSteps later calls) flow o ∨
        ∃ t ∈ s.chronicle.timeoutsIn (s.wakeSteps later calls), t.opening = o ∧
          t.clock = (s.wake later calls).world.timers.now)
  /-- If its deadline is not reached, its timer leaves it alone. -/
  early : ∀ flow o, s.chronicle.current? flow = some o →
    (s.wake later calls).world.timers.now < o.arming.deadline →
    (∀ t ∈ s.chronicle.timeoutsIn (s.wakeSteps later calls), t.opening ≠ o) ∧
      ((s.wake later calls).chronicle.current? flow = some o ∨
        s.chronicle.ClosedByCall (s.wakeSteps later calls) flow o)
  /-- What timers close is handed out, as long as frames have identifiers of their
      own. -/
  handed : (s.wake later calls).world.stores < 2 ^ 64 →
    ∀ t ∈ s.chronicle.timeoutsIn (s.wakeSteps later calls), t.aggregate ≠ none

namespace Kept

variable {s : Session} {setup : Setup} {clock : Nat}

/-- A step that leaves the ticker alone and does not move the clock. -/
theorem of_step (h : s.Kept setup clock) (step : Step)
    (watched : (s.chronicle.step step).Watched) (owing : (s.world.step step).Owing [])
    (hnow : (s.world.step step).timers.now = s.world.timers.now) :
    ({ s with chronicle := s.chronicle.step step } : Session).Kept setup clock where
  reached := by
    rcases h.reached with ⟨steps, heq⟩
    exact ⟨steps ++ [step], by rw [Chronicle.run_concat, ← heq]⟩
  watched := watched
  owing := owing
  passed := h.passed
  clock := hnow.trans h.clock

theorem backed (h : s.Kept setup clock) (steps : List Step)
    (hstores : (s.chronicle.after steps).world.stores < 2 ^ 64) :
    (s.chronicle.after steps).world.Backed := by
  rcases h.reached with ⟨before, heq⟩
  have hrun : s.chronicle.after steps = .run setup (before ++ steps) := by
    rw [heq, Chronicle.after, Chronicle.run, Chronicle.run, List.foldl_append]
  rw [hrun, Chronicle.world_run] at hstores ⊢
  exact World.backed_run setup _ hstores

/-- A wake goes through the queue. -/
theorem underway (h : s.Kept setup clock) (later : Nat) (calls : List (List Call)) :
    s.chronicle.Underway (s.advance later) (s.wakeSteps later calls) [] :=
  Chronicle.underway_wake h.watched h.owing h.backed (s.advance later) calls

/-- What the ticker counts is what has passed, while it fits. -/
theorem elapsed_eq (later : Nat) (calls : List (List Call))
    (hspan : (s.wake later calls).milliseconds < 2 ^ 64) :
    s.ticker.elapsed (s.instant + later) = (s.wake later calls).milliseconds :=
  Nat.mod_eq_of_lt hspan

/-- After a wake the clock has been moved by what has passed. -/
theorem now_wake (h : s.Kept setup clock) (later : Nat) (calls : List (List Call))
    (hspan : (s.wake later calls).milliseconds < 2 ^ 64) :
    (s.wake later calls).world.timers.now
      = min (clock + (s.wake later calls).milliseconds) lastInstant := by
  have hmoved : (s.wake later calls).world.timers.now
      = min (s.world.timers.now + s.advance later) lastInstant := (h.underway later calls).clock
  have hlater : s.milliseconds ≤ (s.wake later calls).milliseconds :=
    s.milliseconds_le_step (.wake later calls)
  rw [advance, elapsed_eq later calls hspan, h.clock, h.passed] at hmoved
  -- A clock that was cut off at the last instant stays there.
  omega

/-- A wake leaves nothing to deliver. -/
theorem wake (h : s.Kept setup clock) (later : Nat) (calls : List (List Call))
    (hspan : (s.wake later calls).milliseconds < 2 ^ 64) :
    (s.wake later calls).Kept setup clock where
  reached := by
    rcases h.reached with ⟨steps, heq⟩
    refine ⟨steps ++ s.wakeSteps later calls, ?_⟩
    rw [Chronicle.run, List.foldl_append, ← Chronicle.run, ← heq]
    rfl
  watched := (h.underway later calls).watched
  owing := (h.underway later calls).owing
  passed := elapsed_eq later calls hspan
  clock := h.now_wake later calls hspan

theorem redeliver (h : s.Kept setup clock) (index : Nat) :
    (s.step (.redeliver index)).Kept setup clock := by
  rcases he : s.world.expiries[index]? with _ | e
  · have hsame := s.world.step_deliver_of_none index he
    refine h.of_step (.deliver index) (h.watched.deliver_of_none index he) ?_ ?_
    all_goals rw [hsame]
    exact h.owing
  · refine h.of_step (.deliver index) ?_ (h.owing.deliver index e he) ?_
    · exact h.watched.deliver index e he (h.owing.sole e (Or.inr rfl))
    · rw [(s.world.deliver_cases index e he).1, Timers.now_acknowledge]

/-- Whatever happens, nothing is left to deliver. -/
theorem step (h : s.Kept setup clock) (m : Move)
    (hspan : (s.step m).milliseconds < 2 ^ 64) : (s.step m).Kept setup clock := by
  cases m with
  | call call =>
      exact h.of_step call.step (h.watched.call call) (h.owing.call h.watched call)
        (h.watched.hands_call call).handover.now
  | redeliver index => exact h.redeliver index
  | refuse store extend =>
      exact h.of_step (.refuse store extend) (h.watched.refuse store extend)
        ⟨h.owing.apart, h.owing.owed⟩ rfl
  | wake later calls => exact h.wake later calls hspan

/-- Between wakes a wake can come. -/
theorem keepsTime (h : s.Kept setup clock) (later : Nat) (calls : List (List Call))
    (hspan : (s.wake later calls).milliseconds < 2 ^ 64) :
    s.KeepsTime clock later calls := by
  have underway := h.underway later calls
  have after := h.wake later calls hspan
  have hnow : (s.wake later calls).world.timers.now = s.world.timers.moved (s.advance later) :=
    underway.clock
  have fires := h.watched.sound.fires (s.advance later)
  constructor
  case ahead =>
    rw [elapsed_eq later calls hspan, h.passed]
    exact s.milliseconds_le_step (.wake later calls)
  case clock => exact after.clock
  case delivered =>
    rcases underway.delivered with ⟨events, hhistory, hevents⟩
    rw [List.append_nil] at hevents
    exact ⟨events, hhistory, hevents⟩
  case once => exact fires.once
  case ordered => exact fires.ordered.imp fun hbefore => hbefore.elim Nat.le_of_lt fun h => h.1.le
  case armed =>
    intro flow p hp
    rcases after.watched.watched flow p.timer ((World.timer?_eq_some_iff _ _ _).mpr ⟨p, hp, rfl⟩)
      with ⟨o, hcurrent, hwatches⟩
    have hwaits := after.watched.waits after.owing hcurrent
    rw [hwatches.timer_eq] at hwaits
    exact ⟨o, hcurrent, hwaits.2.2.arming, hwaits.2.1, hwaits.2.2.ahead⟩
  case opened =>
    intro flow p hp
    rcases h.watched.watched flow p.timer ((World.timer?_eq_some_iff _ _ _).mpr ⟨p, hp, rfl⟩)
      with ⟨o, hcurrent, hwatches⟩
    have hwaits := h.watched.waits h.owing hcurrent
    rw [hwatches.timer_eq] at hwaits
    exact ⟨o, hcurrent, hwaits.2.2.arming⟩
  case due =>
    intro flow o hcurrent hrange hdue
    -- Were it still open, its timer would wait and not be due.
    have hgone : (s.wake later calls).chronicle.current? flow ≠ some o := fun hopen =>
      Nat.not_lt_of_le hdue ((after.watched.waits after.owing hopen).2.2.ahead hrange)
    refine ⟨hgone, ?_⟩
    rcases underway.fate flow o hcurrent with hopen | hclosed | ⟨t, ht, heq⟩
    · exact absurd hopen hgone
    · exact Or.inl hclosed
    · exact Or.inr ⟨t, ht, heq, (underway.due t ht).1.trans hnow.symm⟩
  case early =>
    intro flow o hcurrent hearly
    have hquiet : ∀ t ∈ s.chronicle.timeoutsIn (s.wakeSteps later calls), t.opening ≠ o := by
      rintro t ht rfl
      have hdue := (underway.due t ht).2 flow hcurrent
      rw [hnow] at hearly
      exact Nat.not_lt_of_le hdue hearly
    refine ⟨hquiet, ?_⟩
    rcases underway.fate flow o hcurrent with hopen | hclosed | ⟨t, ht, heq⟩
    · exact Or.inl hopen
    · exact Or.inr hclosed
    · exact absurd heq (hquiet t ht)
  case handed => exact underway.closed

end Kept

/-- A ticker that starts when nothing is left to deliver. -/
theorem kept_start (setup : Setup) (before : List Step) (started : Nat)
    (hfew : (World.run setup before).FewReleases) (hsettled : (World.run setup before).Settled) :
    (start setup before started).Kept setup (World.run setup before).timers.now := by
  have tended := World.tended_run setup before hfew
  have watched := Chronicle.watched_run setup before hfew
  have hzero : (start setup before started).milliseconds = 0 := by
    simp [milliseconds, start]
  rw [← Chronicle.world_run] at hfew hsettled tended
  constructor
  case reached => exact ⟨before, rfl⟩
  case watched => exact watched
  case owing =>
    refine ⟨List.nodup_nil, fun flow handle htimer hfired => ?_⟩
    -- A timer that has fired would be one whose expiry was delivered.
    rcases tended.runs flow handle htimer with hwaiting | ⟨_, e, he, rfl, _⟩
    · cases hwaiting.symm.trans hfired
    · have hold := tended.past e (hsettled e he)
      cases (tended.watch?_old hfew e.handle hold).symm.trans hfired
  case passed => exact hzero.symm
  case clock =>
    rw [hzero, Nat.add_zero, ← Chronicle.world_run]
    exact (Nat.min_eq_left watched.clock).symm

/-- Between wakes nothing is left to deliver. -/
theorem kept_run (setup : Setup) (before : List Step) (started : Nat) (moves : List Move)
    (hfew : (World.run setup before).FewReleases) (hsettled : (World.run setup before).Settled)
    (hspan : (run setup before started moves).milliseconds < 2 ^ 64) :
    (run setup before started moves).Kept setup (World.run setup before).timers.now := by
  induction moves using List.reverseRecOn with
  | nil => exact kept_start setup before started hfew hsettled
  | append_singleton moves m ih =>
      rw [run_concat] at hspan ⊢
      -- The moves before took no longer, so their milliseconds fit as well.
      exact (ih (Nat.lt_of_le_of_lt (milliseconds_le_step _ m) hspan)).step m hspan

/-- A wake of the ticker leaves what is left if these calls are made. -/
structure WokenBy (s : Session) (later : Nat) (calls : List (List Call)) {σ : Type}
    (receive : Delivery → σ × Engine → σ × Engine) (state : σ) : Prop where
  ticker : (s.ticker.wake receive (s.instant + later) (state, s.world.engine)).1
    = (s.wake later calls).ticker
  engine : (s.ticker.wake receive (s.instant + later) (state, s.world.engine)).2.2
    = (s.wake later calls).world.engine

/-- Whoever receives the aggregates, they make some calls. -/
theorem exists_wokenBy (s : Session) (later : Nat) {σ : Type}
    {receive : Delivery → σ × Engine → σ × Engine} (honly : OnlyCalls receive) (state : σ) :
    ∃ calls, s.WokenBy later calls receive state := by
  rcases s.ticker.exists_wakeSteps honly (s.instant + later) s.world state with ⟨calls, heq⟩
  exact ⟨calls, rfl, heq.trans (congrArg World.engine (s.chronicle.world_after _).symm)⟩

end Session

/-- Tickers keep time. Whatever happens between wakes and in the middle of them, after
    every wake the clock shows what it showed at the start and the whole milliseconds
    since then, and what it handed out was delivered once, in order. Every wake of the
    ticker is one of those that are spoken of. -/
theorem wakes_keep_time (setup : Setup) (before : List Step) (started : Nat)
    (moves : List Move) (later : Nat)
    (hfew : ∀ pool slot, (World.run setup before).releases pool slot < 2 ^ 32)
    (hsettled : (World.run setup before).Settled)
    (hspan : ((Session.run setup before started moves).instant + later - started)
      / nanosecondsPerMillisecond < 2 ^ 64) :
    (∀ calls, (Session.run setup before started moves).KeepsTime
        (World.run setup before).timers.now later calls) ∧
      ∀ {σ : Type} (receive : Delivery → σ × Engine → σ × Engine) (state : σ),
        OnlyCalls receive →
          ∃ calls, (Session.run setup before started moves).WokenBy later calls receive state := by
  refine ⟨fun calls => ?_, fun receive state honly => Session.exists_wokenBy _ later honly state⟩
  have hwoken : ((Session.run setup before started moves).wake later calls).milliseconds
      < 2 ^ 64 := by
    rw [Session.milliseconds_wake, Session.started_run]
    exact hspan
  have hbefore := Nat.lt_of_le_of_lt
    (Session.milliseconds_le_step _ (.wake later calls)) hwoken
  exact (Session.kept_run setup before started moves hfew hsettled hbefore).keepsTime later calls
    hwoken

/-- The clock shows what it can. Near the last instant it falls short of what has passed,
    and so it does when the milliseconds since the start no longer fit 64 bits. -/
theorem clock_falls_short :
    ((World.run {} [.advance (lastInstant - 3)]).Settled ∧
      (({ started := 0 } : Ticker).wake (fun _ state => state) (10 * nanosecondsPerMillisecond)
          ((), (World.run {} [.advance (lastInstant - 3)]).engine)).2.2.services.timers.now
        ≠ (World.run {} [.advance (lastInstant - 3)]).timers.now + 10) ∧
      (({ started := 0 } : Ticker).wake (fun _ state => state)
          (2 ^ 64 * nanosecondsPerMillisecond)
          ((), (World.run {} []).engine)).2.2.services.timers.now
        ≠ (World.run {} []).timers.now + 2 ^ 64 := by
  decide +kernel

/-- A flow has been pending for three milliseconds when the ticker starts. -/
def pendingBefore : List Step := [
  .offer 7 (plainFrame 1 [1, 2]) plainPolicy {},
  .advance 3
]

/-- The ticker is woken at once, and twice after less than a whole number of
    milliseconds. In between another flow opens an aggregate, and the first is appended
    to. -/
def unevenMoves : List Move := [
  .wake 0 [],
  .call (.offer 8 (plainFrame 1 [1, 2]) plainPolicy {}),
  .wake 4600000 [],
  .call (.offer 7 (plainFrame 3 [3, 4]) plainPolicy {}),
  .wake 2300000 []
]

theorem wakes_keep_time_uneven :
    (∀ pool slot, (World.run {} pendingBefore).releases pool slot < 2 ^ 32) ∧
      (World.run {} pendingBefore).Settled ∧
      ((Session.run {} pendingBefore 500 unevenMoves).instant + 200000 - 500)
        / nanosecondsPerMillisecond < 2 ^ 64 ∧
      (Session.run {} pendingBefore 500 unevenMoves).KeepsTime
        (World.run {} pendingBefore).timers.now 200000
        [[.offer 7 (plainFrame 5 [5, 6]) plainPolicy {}]] ∧
      ∃ calls, (Session.run {} pendingBefore 500 unevenMoves).WokenBy 200000 calls
        (fun delivery state => (delivery.flow, (state.2.flush 8).2)) 0 := by
  have hfew : ∀ pool slot, (World.run {} pendingBefore).releases pool slot < 2 ^ 32 :=
    World.fewReleases_run {} pendingBefore (by decide)
  have hsettled : (World.run {} pendingBefore).Settled := by decide +kernel
  have hspan : ((Session.run {} pendingBefore 500 unevenMoves).instant + 200000 - 500)
      / nanosecondsPerMillisecond < 2 ^ 64 := by decide +kernel
  have h := wakes_keep_time {} pendingBefore 500 unevenMoves 200000 hfew hsettled hspan
  exact ⟨hfew, hsettled, hspan, h.1 _, h.2 _ 0 fun _ _ _ => ⟨[.flush 8], rfl⟩⟩

/-- What is left over at each wake adds up to the millisecond in which the first flow
    times out. -/
example : ((Session.run {} pendingBefore 500 unevenMoves).chronicle.timeoutsIn
      ((Session.run {} pendingBefore 500 unevenMoves).wakeSteps 200000 [])).map
    (fun t => (t.opening.flow, t.opening.arming.deadline, t.clock)) = [(7, 10, 10)] := by
  decide +kernel

end ReceiveOffload
