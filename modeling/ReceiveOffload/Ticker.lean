import ReceiveOffload.Engine

/-!
# Tickers

A ticker moves the clock of an engine along with the time that passes outside.
It is woken every so often, and it cannot rely on being woken in time, so at
each wake it advances the clock by what has passed since it started less what
it has advanced the clock by already. Only whole milliseconds are passed on.
What is left over is not lost: it is part of what has passed at the next wake.
Milliseconds are counted in 64 bits.

Each wake deals with every timer that ran out.

`TickerSchedule` runs tickers on time that is moved on by hand. A ticker starts
when time is next moved on, wakes at once, and after that at every period. A
ticker without a period never wakes. Moving time on goes from one wake to the
next, so what it costs depends on the number of wakes and not on the time.

## Main definitions

* `Ticker`: A ticker that has started.
* `Ticker.wake`: What a ticker does when it is woken.
* `ScheduledTicker.delay?`: How long until a ticker wakes.
* `TickerSchedule`: Tickers on time that is moved on by hand.
* `TickerSchedule.pass`: Moves time on.
-/

namespace ReceiveOffload

/-- The number of nanoseconds in a millisecond. -/
def nanosecondsPerMillisecond : Nat :=
  1000000

/-- A ticker that has started. -/
structure Ticker where
  /-- When it started, in nanoseconds. -/
  started : Nat
  /-- By how much it has advanced the clock, in milliseconds. -/
  advanced : Nat := 0
  deriving DecidableEq, Repr

namespace Ticker

/-- The whole milliseconds that have passed at an instant since the start, in 64
    bits. -/
def elapsed (ticker : Ticker) (instant : Nat) : Nat :=
  (instant - ticker.started) / nanosecondsPerMillisecond % UInt64.size

/-- Moves the clock of an engine on to an instant; gives what ran out. -/
def advance (ticker : Ticker) (instant : Nat) (engine : Engine) :
    List Expiry × Ticker × Engine :=
  let elapsed := ticker.elapsed instant
  let (expiries, timers) := engine.services.timers.advance (elapsed - ticker.advanced)
  (expiries, { ticker with advanced := elapsed },
    { engine with services := { engine.services with timers } })

/-- Moves the clock of an engine on to an instant and deals with what ran
    out. -/
def wake {σ : Type} (receive : Delivery → σ × Engine → σ × Engine) (ticker : Ticker)
    (instant : Nat) (state : σ × Engine) : Ticker × σ × Engine :=
  let (expiries, ticker, engine) := ticker.advance instant state.2
  (ticker, Engine.deliverAll receive (state.1, engine) expiries)

end Ticker

/-- A ticker with its period in milliseconds, and when it is to wake next. It
    has no ticker until it starts. -/
structure ScheduledTicker where
  period : Nat
  ticker : Option Ticker := none
  next : Nat := 0
  deriving DecidableEq, Repr

/-- How long it is from an instant until the ticker wakes: it starts at once,
    and without a period it never wakes. -/
def ScheduledTicker.delay? (now : Nat) (scheduled : ScheduledTicker) : Option Nat :=
  if scheduled.period = 0 then none
  else
    match scheduled.ticker with
    | none => some 0
    | some _ => some (scheduled.next - now)

/-- Tickers on time that is moved on by hand, in milliseconds. -/
structure TickerSchedule where
  now : Nat := 0
  tickers : List ScheduledTicker := []
  deriving DecidableEq, Repr

namespace TickerSchedule

/-- Adds a ticker, which starts when time is next moved on. -/
def spawn (schedule : TickerSchedule) (period : Nat) : TickerSchedule :=
  { schedule with tickers := schedule.tickers ++ [{ period }] }

/-- Stops all tickers. -/
def stop (schedule : TickerSchedule) : TickerSchedule :=
  { schedule with tickers := [] }

section Pass

variable {σ : Type} (receive : Delivery → σ × Engine → σ × Engine)

/-- Wakes a ticker if it is due at an instant, and starts it if it is new. -/
def tick (now : Nat) (scheduled : ScheduledTicker) (state : σ × Engine) :
    ScheduledTicker × σ × Engine :=
  if scheduled.delay? now = some 0 then
    let instant := now * nanosecondsPerMillisecond
    let ticker := scheduled.ticker.getD { started := instant }
    let (ticker, state) := ticker.wake receive instant state
    ({ scheduled with ticker := some ticker, next := now + scheduled.period }, state)
  else (scheduled, state)

/-- Wakes the tickers that are due at an instant, in order. -/
def tickAll (now : Nat) : List ScheduledTicker → σ × Engine → List ScheduledTicker × σ × Engine
  | [], state => ([], state)
  | scheduled :: rest, state =>
    let (scheduled, state) := tick receive now scheduled state
    let (rest, state) := tickAll now rest state
    (scheduled :: rest, state)

/-- Wakes the tickers that are due from one instant to another, one after the
    other. -/
def passUntil (last now : Nat) (tickers : List ScheduledTicker) (state : σ × Engine) :
    List ScheduledTicker × σ × Engine :=
  match (tickers.filterMap (ScheduledTicker.delay? now)).min? with
  | none => (tickers, state)
  | some delay =>
    if now + delay ≤ last then
      let (tickers, state) := tickAll receive (now + delay) tickers state
      passUntil last (now + delay + 1) tickers state
    else (tickers, state)
termination_by last + 1 - now

/-- Moves time on by so many milliseconds. -/
def pass (schedule : TickerSchedule) (milliseconds : Nat) (state : σ × Engine) :
    TickerSchedule × σ × Engine :=
  let last := schedule.now + milliseconds
  let (tickers, state) := passUntil receive last schedule.now schedule.tickers state
  ({ now := last, tickers }, state)

end Pass

end TickerSchedule

end ReceiveOffload
