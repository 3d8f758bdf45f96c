import ReceiveOffload.Proofs.Books
import ReceiveOffload.Proofs.Solos
import ReceiveOffload.Proofs.Tending

/-!
# What Calls Come To

A call is on one flow. Of that flow it makes what the flow makes of it by itself,
if it says that nothing was refused. Of the other flows it makes nothing, refused
or not: what is remembered of them, the frames that are stored for them and their
timers are after the call what they were before.

## Main definitions

* `Call`: A segment that is offered to a flow, or a request to close what is
  pending on it.
* `Call.conduct`: What it comes to for the flow by itself.
* `Engine.Conducts`: An engine comes to the same.
* `World.Spared`: Nothing of a flow was touched.

## Theorems

* `World.Backed.conducts`: What a call makes of its flow.
* `World.Backed.spared`: What it makes of every other flow.
-/

namespace ReceiveOffload

/-- A call on a flow. -/
inductive Call where
  | offer (flow : UInt64) (frame : Frame) (policy : Policy) (extras : Extras)
  | flush (flow : UInt64)
  deriving DecidableEq, Repr

namespace Call

/-- The flow that is called on. -/
def flow : Call → UInt64
  | offer flow _ _ _ => flow
  | flush flow => flow

/-- The step that it is. -/
def step : Call → Step
  | offer flow frame policy extras => .offer flow frame policy extras
  | flush flow => .flush flow

/-- What is seen of a call that hands out this. -/
def event (output : Output) : Call → Event
  | offer flow frame _ _ => .offered flow frame output
  | flush flow => .flushed flow output

/-- What a call comes to for its flow by itself. -/
def conduct (standing : Option Solo) : Call → Conduct
  | offer _ frame policy extras =>
    match frame.segment?, standing with
    | none, _ => ⟨.handBack { badFrame := true } frame, standing, 0, id⟩
    | some segment, none => Solo.onIdle ⟨segment, policy, extras⟩
    | some segment, some solo => solo.onPending ⟨segment, policy, extras⟩
  | flush _ =>
    match standing with
    | none => ⟨{ disposition := { noAggregation := true } }, none, 0, id⟩
    | some solo => solo.flushed

end Call

/-- What a call writes at an address depends on no other address. -/
theorem Call.pointwise_conduct (call : Call) (standing : Option Solo) :
    Metadata.Pointwise (call.conduct standing).writes := by
  cases call with
  | offer flow frame policy extras =>
      simp only [conduct]
      rcases frame.segment? with _ | segment
      · exact .id
      · rcases standing with _ | solo
        · exact Solo.pointwise_onIdle _
        · exact solo.pointwise_onPending _
  | flush flow =>
      rcases standing with _ | solo
      · exact .id
      · exact solo.pending.pointwise_writeCount

/-- The aggregate of a flow, with its frame. -/
def Engine.solo? (engine : Engine) (flow : UInt64) : Option Solo :=
  engine.services.solo? (engine.pending flow)

/-- A call on an engine comes to what its flow comes to by itself. -/
structure Engine.Conducts (engine engine' : Engine) (flow : UInt64) (output : Output)
    (conduct : Conduct) : Prop where
  output : output = conduct.output
  left : engine'.solo? flow = conduct.left
  raises : engine.services.counters.Raised engine'.services.counters conduct.raises
  metadata : engine'.services.metadata = conduct.writes engine.services.metadata

namespace World

/-- What a call hands out. -/
def output (w : World) : Call → Output
  | .offer flow frame policy extras => (w.engine.offer flow frame policy extras).1
  | .flush flow => (w.engine.flush flow).1

/-- What a call leaves of the engine. -/
def after (w : World) : Call → Engine
  | .offer flow frame policy extras => (w.engine.offer flow frame policy extras).2
  | .flush flow => (w.engine.flush flow).2

theorem step_call (w : World) (call : Call) :
    w.step call.step = w.next (w.after call) [call.event (w.output call)] := by
  cases call <;> rfl

variable {w : World}

/-- What is pending has its frame in storage. -/
theorem Backed.solo?_some (h : w.Backed) (flow : UInt64) (p : Pending)
    (hp : w.engine.pending flow = some p) :
    ∃ stored, w.engine.services.stored? p.frame = some stored ∧
      w.engine.solo? flow = some ⟨p.nameless, stored⟩ := by
  rcases Option.ne_none_iff_exists'.mp (h.stored flow p hp) with ⟨stored, hstored⟩
  exact ⟨stored, hstored, by rw [Engine.solo?, hp, Services.solo?_some hstored]⟩

/-- An offer that is granted comes to what it comes to by itself. -/
theorem Backed.conducts_offer (h : w.Backed) (hstores : w.stores < 2 ^ 64) (flow : UInt64)
    (frame : Frame) (policy : Policy) (extras : Extras)
    (granted : (w.engine.offer flow frame policy extras).1.Granted) :
    w.engine.Conducts (w.engine.offer flow frame policy extras).2 flow
      (w.engine.offer flow frame policy extras).1
      ((Call.offer flow frame policy extras).conduct (w.engine.solo? flow)) := by
  rcases hsegment : frame.segment? with _ | segment
  · rcases w.engine.offer_refused flow frame policy extras hsegment with ⟨houtput, hleft⟩
    simp only [Call.conduct, hsegment, houtput]
    rcases hleft with heq | ⟨cause, heq⟩
    all_goals
      rw [heq]
      exact ⟨rfl, rfl, .of_eq rfl, rfl⟩
  · rcases w.engine.offer_accepted flow frame policy extras segment hsegment with
      ⟨houtput, hpending, hservices⟩
    rw [houtput] at granted ⊢
    have hflow := hpending flow
    rw [if_pos rfl] at hflow
    -- An offer that is accepted is a turn of its flow, which finds an aggregate or none.
    have hfollows : (w.engine.turn flow segment policy extras).Follows w.engine.services
        ((Call.offer flow frame policy extras).conduct (w.engine.solo? flow)) := by
      unfold Engine.turn at granted ⊢
      rcases hp : w.engine.pending flow with _ | p
      all_goals rw [hp] at granted
      · simp only [Call.conduct, hsegment, Engine.solo?, hp]
        exact w.engine.services.onIdle_follows flow ⟨segment, policy, extras⟩ granted
      · rcases h.solo?_some flow p hp with ⟨stored, hstored, hsolo⟩
        simp only [Call.conduct, hsegment, hsolo]
        exact w.engine.services.onPending_follows flow p ⟨segment, policy, extras⟩ stored h.ready
          (h.fresh hstores) hstored granted
    constructor
    case output => exact hfollows.output
    case left => rw [Engine.solo?, hflow, hservices, hfollows.left]
    case raises => exact hservices ▸ hfollows.raises
    case metadata => exact hservices ▸ hfollows.metadata

theorem Backed.conducts_flush (h : w.Backed) (flow : UInt64) :
    w.engine.Conducts (w.engine.flush flow).2 flow (w.engine.flush flow).1
      ((Call.flush flow).conduct (w.engine.solo? flow)) := by
  rcases w.engine.flush_cases flow with ⟨hnone, houtput, hpending, hservices⟩ |
    ⟨p, hp, houtput, hpending, hservices⟩
  · have hsolo : w.engine.solo? flow = none := by rw [Engine.solo?, hnone]; rfl
    rw [hsolo, houtput]
    constructor
    case output => rfl
    case left => rw [Engine.solo?, hpending, hnone]; rfl
    case raises => exact .of_eq (congrArg Services.counters hservices)
    case metadata => exact congrArg Services.metadata hservices
  · rcases h.solo?_some flow p hp with ⟨stored, hstored, hsolo⟩
    rw [hsolo, houtput]
    have hflow := hpending flow
    rw [if_pos rfl] at hflow
    -- The request is counted, and then the aggregate is closed.
    have hcounted : ∃ s : Services, w.engine.flushed flow p = s.closeAggregate p ∧
        s.frames = w.engine.services.frames ∧ s.metadata = w.engine.services.metadata ∧
        w.engine.services.counters.Raised s.counters (if p.extendedStatistics
          then Statistic.flushRequests.entry p.statistics 1 else 0) := by
      refine ⟨_, rfl, ?_⟩
      split
      · exact ⟨rfl, rfl, w.engine.services.counters.raised_raise _ _⟩
      · exact ⟨rfl, rfl, .of_eq rfl⟩
    rcases hcounted with ⟨s, hflushed, hframes, hmetadata, hraised⟩
    rcases s.closeAggregate_solo p stored (h.ready.of_frames_eq hframes).spares
      ((congrFun (Services.stored?_congr hframes) p.frame).trans hstored) with
      ⟨hsealed, hclosed, hwritten, _⟩
    rw [hflushed] at hservices ⊢
    constructor
    case output => exact congrArg (fun aggregate => Output.ofClosing aggregate _) hsealed
    case left => rw [Engine.solo?, hflow]; rfl
    case raises => exact hservices ▸ hraised.trans hclosed
    case metadata => exact hservices ▸ hmetadata ▸ hwritten

/-- Nothing of a flow was touched: neither what is remembered of its aggregate, nor the
    frame that is stored for it, nor its timer. -/
structure Spared (w w' : World) (flow : UInt64) : Prop where
  pending : w'.engine.pending flow = w.engine.pending flow
  stored : ∀ p, w.engine.pending flow = some p →
    w'.engine.services.stored? p.frame = w.engine.services.stored? p.frame
  timer : ∀ p, w.engine.pending flow = some p →
    w'.timers.owned? p.timer = w.timers.owned? p.timer

/-- A flow that is spared has the same aggregate, with the same frame. -/
theorem Spared.solo?_eq {w' : World} {flow : UInt64} (spared : w.Spared w' flow) :
    w'.engine.solo? flow = w.engine.solo? flow := by
  rw [Engine.solo?, Engine.solo?, spared.pending]
  rcases hp : w.engine.pending flow with _ | p
  · rfl
  · simp only [Services.solo?, Option.bind_some, spared.stored p hp]

/-- A call whose output says that nothing was refused. -/
theorem Backed.conducts (h : w.Backed) (hstores : w.stores < 2 ^ 64) (call : Call)
    (granted : (w.output call).Granted) :
    w.engine.Conducts (w.after call) call.flow (w.output call)
      (call.conduct (w.engine.solo? call.flow)) := by
  cases call with
  | offer flow frame policy extras =>
      exact h.conducts_offer hstores flow frame policy extras granted
  | flush flow => exact h.conducts_flush flow

/-- No call touches another flow's timer. -/
theorem Tended.passing_call (h : w.Tended) (call : Call) :
    w.Passing (w.step call.step) call.flow := by
  cases call with
  | offer flow frame policy extras => exact h.passing_offer flow frame policy extras
  | flush flow => exact h.passing_flush flow

/-- The storage of a flow is not touched by calls on others. -/
theorem Backed.spared_frames (h : w.Backed) (hstores : w.stores < 2 ^ 64) (call : Call)
    (g : UInt64) (hg : g ≠ call.flow) : (w.after call).pending g = w.engine.pending g ∧
      ∀ p, w.engine.pending g = some p →
        (w.after call).services.stored? p.frame = w.engine.services.stored? p.frame := by
  cases call with
  | offer flow frame policy extras =>
      simp only [after]
      rcases hsegment : frame.segment? with _ | segment
      · rcases (w.engine.offer_refused flow frame policy extras hsegment).2 with
          heq | ⟨cause, heq⟩
        all_goals
          rw [heq]
          exact ⟨rfl, fun _ _ => rfl⟩
      -- The call works on its own frame, and on one under an identifier that was free.
      · rcases h.calling_offer hstores flow frame policy extras segment hsegment with
          ⟨_, hcalling⟩
        exact ⟨hcalling.others g hg, fun p hp => hcalling.stored_other h g p hg hp⟩
  | flush flow =>
      rcases w.engine.flush_cases flow with ⟨_, _, hpending, hservices⟩ |
        ⟨p, hp, houtput, hpending, hservices⟩
      · exact ⟨hpending g, fun p _ => congrArg (fun s => s.stored? p.frame) hservices⟩
      · have hcalling := h.calling_flush flow p hp houtput hpending hservices
        exact ⟨hcalling.others g hg, fun q hq => hcalling.stored_other h g q hg hq⟩

/-- A call touches nothing of any other flow, whether something is refused or not. -/
theorem Backed.spared (h : w.Backed) (tended : w.Tended) (hstores : w.stores < 2 ^ 64)
    (call : Call) (g : UInt64) (hg : g ≠ call.flow) : w.Spared (w.step call.step) g := by
  rcases h.spared_frames hstores call g hg with ⟨hpending, hstored⟩
  have hpass := tended.passing_call call
  constructor
  case pending => rw [step_call]; exact hpending
  case stored => rw [step_call]; exact hstored
  case timer =>
    intro p hp
    have htimer := (w.timer?_eq_some_iff g p.timer).mpr ⟨p, hp, rfl⟩
    exact hpass.handover.intact p.timer
      (fun hsame => hg (tended.apart g call.flow p.timer htimer hsame))
      (tended.watch?_ne_none g p.timer htimer)

end World

end ReceiveOffload
