import Mathlib.Algebra.BigOperators.Group.Finset.Piecewise
import ReceiveOffload.Proofs.Conducts
import ReceiveOffload.Proofs.Listings

/-!
# Flows Do Not Interfere

Calls on several flows can come in any order, and all of them share one storage,
one set of timers, one set of counters and one metadata memory. Two orders of the
same calls differ in which timer an aggregate gets and under which identifier its
frame is stored. They differ in nothing else, if no call says that something was
refused.

To compare two orders step by step would need a renaming of timers and frames that
is carried along. Instead each order is compared to the same third thing, which is
what every flow comes to by itself: its `Career` depends on the calls on this flow
and on no others. Every flow of an engine is what its career says, however its
calls are mixed with others, so it is the same in both orders.

What is shared is put together from the careers. The counters were raised by all
of them, and a sum has no order. The metadata is in order too where every octet is
the business of one flow only. Whatever a flow writes stays inside its area, so
that is the case if the areas of different flows have no octet in common.

## Main definitions

* `World.serve`: What a list of calls comes to.
* `World.Granted`: No call says that something was refused.
* `onFlow`: The calls on a flow.
* `InArea`: An address is in the area of a flow.
* `Career`, `careerOf`: What a flow comes to by itself.
* `World.Separate`: Every flow is as it would be by itself.
* `World.Resembles`: Two worlds differ in names of timers and frames at most.

## Theorems

* `World.separate_serve`: Every flow is as it would be by itself in every run.
* `flows_apart`: Two orders of the same calls come to the same, and a call touches
  its own flow only.
-/

namespace ReceiveOffload

namespace World

/-- What a list of calls comes to. -/
def serve (setup : Setup) (calls : List Call) : World :=
  run setup (calls.map Call.step)

theorem serve_concat (setup : Setup) (calls : List Call) (call : Call) :
    serve setup (calls ++ [call]) = (serve setup calls).step call.step := by
  rw [serve, List.map_append, List.map_singleton, run_concat]
  rfl

/-- Without a clock no slot is ever delivered to, so however often it is released its
    timers are tended. -/
theorem tended_serve (setup : Setup) (calls : List Call) : (serve setup calls).Tended := by
  induction calls using List.reverseRecOn with
  | nil => exact tended_start setup
  | append_singleton calls call ih =>
      rw [serve_concat]
      exact (ih.passing_call call).tended ih

end World

/-- Whether an event is about a flow. -/
def Event.isOn (flow : UInt64) : Event → Bool
  | .offered flow' _ _ => flow' = flow
  | .flushed flow' _ => flow' = flow
  | .ranOut _ => false
  | .delivered expiry _ => expiry.flow = flow

/-- What an event hands out to a caller. -/
def Event.output? : Event → Option Output
  | .offered _ _ output => some output
  | .flushed _ output => some output
  | .ranOut _ | .delivered _ _ => none

/-- All calls say that there was a timer where one was needed and that nothing was
    lost. -/
def World.Granted (w : World) : Prop :=
  ∀ event ∈ w.history, ∀ output ∈ event.output?, output.Granted

instance (w : World) : Decidable w.Granted :=
  inferInstanceAs (Decidable (∀ event ∈ w.history, ∀ output ∈ event.output?, output.Granted))

theorem Call.isOn_event (call : Call) (output : Output) (flow : UInt64) :
    (call.event output).isOn flow = decide (call.flow = flow) := by
  cases call <;> rfl

theorem Call.output?_event (call : Call) (output : Output) :
    (call.event output).output? = some output := by
  cases call <;> rfl

/-- The calls on a flow. -/
def onFlow (flow : UInt64) (calls : List Call) : List Call :=
  calls.filter fun call => call.flow = flow

/-- A call on another flow is none of the flow's business. -/
theorem onFlow_concat (flow : UInt64) (calls : List Call) (call : Call) :
    onFlow flow (calls ++ [call])
      = if call.flow = flow then onFlow flow calls ++ [call] else onFlow flow calls := by
  simp only [onFlow, List.filter_append, List.filter_cons, List.filter_nil, decide_eq_true_eq]
  split
  · rfl
  · exact List.append_nil _

/-- What a call offers. -/
def Call.offer? : Call → Option Offer
  | .offer _ frame policy extras => frame.segment?.map fun segment => ⟨segment, policy, extras⟩
  | .flush _ => none

/-- What is offered to a flow. -/
def offersTo (flow : UInt64) (calls : List Call) : List Offer :=
  (onFlow flow calls).filterMap Call.offer?

/-- Only a call on the flow offers it anything. -/
theorem offersTo_concat (flow : UInt64) (calls : List Call) (call : Call) :
    offersTo flow (calls ++ [call])
      = offersTo flow calls ++ (if call.flow = flow then call.offer? else none).toList := by
  rw [offersTo, offersTo, onFlow_concat]
  split
  · rw [List.filterMap_append]
    rcases hoffer : call.offer? with _ | x
    · rw [List.filterMap_cons_none hoffer]
      rfl
    · rw [List.filterMap_cons_some hoffer]
      rfl
  · exact (List.append_nil _).symm

/-- An address is in the area of a flow: some call on the flow names where the area
    starts, and some call for how many segments it is. -/
def InArea (calls : List Call) (flow address : UInt64) : Prop :=
  ∃ x ∈ offersTo flow calls, ∃ y ∈ offersTo flow calls,
    Metadata.offsetIn x.policy.metadata address < Metadata.areaLength y.policy.segmentLimit

/-- An area that an offer may write to stays one. -/
theorem InArea.concat {calls : List Call} {flow address : UInt64}
    (h : InArea calls flow address) (call : Call) : InArea (calls ++ [call]) flow address := by
  rcases h with ⟨x, hx, y, hy, hlt⟩
  rw [InArea, offersTo_concat]
  exact ⟨x, List.mem_append_left _ hx, y, List.mem_append_left _ hy, hlt⟩

/-- The calls as trials. -/
def Call.trials (calls : List Call) : List Trial :=
  (calls.map Call.step).map Trial.step

theorem Call.offer?_step (call : Call) (flow : UInt64) :
    (Trial.step call.step).offer? flow = if call.flow = flow then call.offer? else none := by
  cases call with
  | offer => rfl
  | flush => exact (ite_self _).symm

/-- What was offered to a flow is what the calls on it brought. -/
theorem offered_iff (calls : List Call) (flow : UInt64) (x : Offer) :
    Offered (Call.trials calls) flow x ↔ x ∈ offersTo flow calls := by
  simp only [Offered, Call.trials, List.map_map, List.mem_map, offersTo, onFlow,
    List.mem_filterMap, List.mem_filter, decide_eq_true_eq]
  constructor
  · rintro ⟨_, ⟨call, hcall, rfl⟩, hx⟩
    rw [Function.comp_apply, call.offer?_step] at hx
    split at hx
    case isTrue hflow => exact ⟨call, ⟨hcall, hflow⟩, hx⟩
    case isFalse => cases hx
  · rintro ⟨call, ⟨hcall, hflow⟩, hx⟩
    exact ⟨_, ⟨call, hcall, rfl⟩, by rw [Function.comp_apply, call.offer?_step, if_pos hflow, hx]⟩

namespace Dossier

/-- What is pending on a flow has room left in its area, and is made of what was offered
    to the flow. -/
theorem contained_run (setup : Setup) (trials : List Trial)
    (hstores : (run setup trials).world.stores < 2 ^ 64) (flow : UInt64) :
    Course.Contained ((run setup trials).world.engine.pending flow)
      ((run setup trials).offers flow) ∧
      ∀ x ∈ (run setup trials).offers flow, Offered trials flow x := by
  refine (run_courses setup trials
    (fun flow pending offers => Course.Contained pending offers ∧
      ∀ x ∈ offers, Offered trials flow x) (fun _ _ _ => True) hstores
    (fun _ => ⟨Course.contained_none [], fun _ h => absurd h List.not_mem_nil⟩) ?_).1 flow
  intro g arrival before after handed harrival hheld hbefore course
  refine ⟨⟨course.contained hheld (fun x hx => (harrival x hx).1) hbefore.1, fun x hx => ?_⟩,
    fun _ _ => trivial⟩
  rcases List.mem_append.mp (course.offers_subset hx) with hold | hnew
  · exact hbefore.2 x hold
  · exact (harrival x (Option.mem_toList.mp hnew)).2

/-- A call takes a course on its own flow or changes nothing that is told here. -/
theorem call_cases {d : Dossier} (kept : d.roster.Kept) (hstores : d.world.stores < 2 ^ 64)
    (call : Call) : d.Idles (.step call.step) ∨
      ∃ handed, d.Calls (.step call.step) call.flow handed := by
  cases call with
  | offer flow frame policy extras =>
      rcases hsegment : frame.segment? with _ | segment
      · exact Or.inl (idles_refused kept flow frame policy extras hsegment)
      · rcases calls_offer kept hstores flow frame policy extras segment hsegment with
          ⟨handed, hcalls, _⟩
        exact Or.inr ⟨handed, hcalls⟩
  | flush flow => exact flush_cases kept flow

end Dossier

theorem World.dossier_world (setup : Setup) (calls : List Call) :
    (Dossier.run setup (Call.trials calls)).world = serve setup calls :=
  (congrArg Roster.world (Dossier.roster_run setup _)).trans (Roster.world_run setup _)

/-- What a flow comes to by itself: how it stands, what was seen of it, how much it raised
    the counters, and the metadata with what it wrote. -/
structure Career where
  standing : Option Solo := none
  events : List Event := []
  raised : UInt64 → Nat := 0
  metadata : Metadata

namespace Career

/-- The career after a call. -/
def next (career : Career) (call : Call) : Career :=
  let conduct := call.conduct career.standing
  {
    standing := conduct.left
    events := career.events ++ [call.event conduct.output]
    raised := career.raised + conduct.raises
    metadata := conduct.writes career.metadata
  }

/-- What a list of calls comes to for a flow by itself. -/
def run (metadata : Metadata) (calls : List Call) : Career :=
  calls.foldl next { metadata }

theorem run_concat (metadata : Metadata) (calls : List Call) (call : Call) :
    run metadata (calls ++ [call]) = (run metadata calls).next call := by
  simp only [run, List.foldl_append, List.foldl_cons, List.foldl_nil]

end Career

/-- The career of a flow among others. -/
def careerOf (setup : Setup) (calls : List Call) (flow : UInt64) : Career :=
  .run setup.metadata (onFlow flow calls)

/-- A flow by itself goes on with its own calls. -/
theorem careerOf_concat (setup : Setup) (calls : List Call) (call : Call) (flow : UInt64) :
    careerOf setup (calls ++ [call]) flow
      = if call.flow = flow then (careerOf setup calls flow).next call
        else careerOf setup calls flow := by
  rw [careerOf, onFlow_concat]
  split
  · rw [Career.run_concat]
    rfl
  · rfl

/-- A call adds to the flow that it is on. -/
theorem sum_raised_concat (setup : Setup) (calls : List Call) (call : Call)
    (flows : Finset UInt64) (hmem : call.flow ∈ flows) :
    ∑ flow ∈ flows, (careerOf setup (calls ++ [call]) flow).raised
      = ∑ flow ∈ flows, (careerOf setup calls flow).raised
        + (call.conduct (careerOf setup calls call.flow).standing).raises := by
  have hstep : ∀ flow, (careerOf setup (calls ++ [call]) flow).raised
      = (careerOf setup calls flow).raised + if call.flow = flow
        then (call.conduct (careerOf setup calls flow).standing).raises else 0 := by
    intro flow
    rw [careerOf_concat]
    split
    · rfl
    · exact (add_zero _).symm
  rw [Finset.sum_congr rfl (fun flow _ => hstep flow), Finset.sum_add_distrib, Finset.sum_ite_eq,
    if_pos hmem]

namespace World

/-- Calls that follow store frames of their own. -/
theorem stores_serve_le (setup : Setup) (before after : List Call) :
    (serve setup before).stores ≤ (serve setup (before ++ after)).stores := by
  induction after using List.reverseRecOn with
  | nil => rw [List.append_nil]
  | append_singleton after call ih =>
      rw [← List.append_assoc, serve_concat]
      exact Nat.le_trans ih (World.stores_le_step _ _)

/-- A call changes no octet outside of the area of its flow. -/
theorem octet_concat (setup : Setup) (calls : List Call) (call : Call)
    (hstores : (serve setup calls).stores < 2 ^ 64) (a : UInt64)
    (hout : ¬ InArea (calls ++ [call]) call.flow a) :
    ((serve setup calls).step call.step).engine.services.metadata.octet a
      = (serve setup calls).engine.services.metadata.octet a := by
  have hworld := dossier_world setup calls
  have hkept := Dossier.kept_run setup (Call.trials calls) (hworld.symm ▸ hstores)
  have hcontained := Dossier.contained_run setup (Call.trials calls) (hworld.symm ▸ hstores)
  have hcases := Dossier.call_cases hkept (hworld.symm ▸ hstores) call
  rw [← hworld]
  generalize hd : Dossier.run setup (Call.trials calls) = d at hcases hcontained
  rcases hcases with idles | ⟨handed, hcalls⟩
  · exact congrArg (fun standing => standing.metadata.octet a) (idles.standing call.flow)
  · -- Whatever the call writes is placed by offers to its flow.
    have hoffers : ∀ x ∈ d.offers call.flow ++ ((Trial.step call.step).offer? call.flow).toList,
        x ∈ offersTo call.flow (calls ++ [call]) := by
      intro x hx
      rw [call.offer?_step] at hx
      rw [offersTo_concat]
      rcases List.mem_append.mp hx with hold | hnew
      · exact List.mem_append_left _ ((offered_iff _ _ x).mp ((hcontained call.flow).2 x hold))
      · exact List.mem_append_right _ hnew
    -- The address is in none of the areas, whichever offer placed one and however many sizes
    -- another allows.
    have hapart : ∀ x ∈ d.offers call.flow ++ ((Trial.step call.step).offer? call.flow).toList,
        ∀ y ∈ d.offers call.flow ++ ((Trial.step call.step).offer? call.flow).toList,
        Metadata.Apart a 1 x.policy.metadata (Metadata.areaLength y.policy.segmentLimit) := by
      rintro x hx y hy z ⟨hz, hin⟩
      rw [(Metadata.offsetIn_lt_one_iff a z).mp hz] at hin
      exact hout ⟨x, hoffers x hx, y, hoffers y hy, hin⟩
    exact hcalls.course.agreeOn (hcontained call.flow).1 hapart a
      ((Metadata.offsetIn_lt_one_iff a a).mpr rfl)

/-- Every flow is as it would be by itself, and the counters were raised by all of them
    together. -/
structure Separate (w : World) (setup : Setup) (calls : List Call) : Prop where
  standing : ∀ flow, w.engine.solo? flow = (careerOf setup calls flow).standing
  events : ∀ flow, w.history.filter (Event.isOn flow) = (careerOf setup calls flow).events
  raised : ∀ flows : Finset UInt64, (∀ call ∈ calls, call.flow ∈ flows) →
    setup.counters.Raised w.engine.services.counters
      (∑ flow ∈ flows, (careerOf setup calls flow).raised)
  octets : ∀ flow a, (∀ other, other ≠ flow → ¬ InArea calls other a) →
    w.engine.services.metadata.octet a = (careerOf setup calls flow).metadata.octet a

/-- Where nothing was refused, nothing was refused before, nor in the last call. -/
theorem Granted.before {w : World} {call : Call} (granted : (w.step call.step).Granted) :
    w.Granted ∧ (w.output call).Granted := by
  rw [step_call] at granted
  constructor
  · exact fun event hevent => granted event (List.mem_append_left _ hevent)
  · exact granted (call.event (w.output call)) (List.mem_append_right _ (List.mem_singleton_self _))
      _ (call.output?_event _)

/-- Before there were calls, no flow has done anything. -/
theorem separate_start (setup : Setup) : (start setup).Separate setup [] where
  standing _ := rfl
  events _ := rfl
  raised _ _ := by
    have hnothing : ∀ flows : Finset UInt64,
        ∑ flow ∈ flows, (careerOf setup [] flow).raised = 0 :=
      fun _ => Finset.sum_eq_zero fun _ _ => rfl
    rw [hnothing]
    exact .refl _
  octets _ _ _ := rfl

/-- Where nothing is refused, every flow does what it does by itself. -/
theorem separate_serve (setup : Setup) (calls : List Call)
    (hstores : (serve setup calls).stores < 2 ^ 64) (granted : (serve setup calls).Granted) :
    (serve setup calls).Separate setup calls := by
  induction calls using List.reverseRecOn with
  | nil => exact separate_start setup
  | append_singleton calls call ih =>
      rw [serve_concat] at hstores granted ⊢
      have hbefore := Nat.lt_of_le_of_lt ((serve setup calls).stores_le_step call.step) hstores
      rcases granted.before with ⟨hgranted, houtput⟩
      have hseparate := ih hbefore hgranted
      have hbacked : (serve setup calls).Backed := backed_run setup _ hbefore
      have hconducts := hbacked.conducts hbefore call houtput
      have hspared := fun g hg => hbacked.spared (tended_serve setup calls) hbefore call g hg
      rw [hseparate.standing call.flow] at hconducts
      -- Of each flow it is either the one that was called, and did what it does by itself, or one
      -- that was spared.
      constructor
      case standing =>
        intro flow
        rw [careerOf_concat]
        split
        case isTrue hflow =>
          subst hflow
          rw [step_call]
          exact hconducts.left
        case isFalse hflow => rw [(hspared flow (Ne.symm hflow)).solo?_eq, hseparate.standing flow]
      case events =>
        intro flow
        rw [careerOf_concat, step_call]
        show List.filter (Event.isOn flow) (_ ++ [_]) = _
        rw [List.filter_append, hseparate.events flow, List.filter_singleton, call.isOn_event]
        split
        case isTrue hflow =>
          subst hflow
          rw [decide_eq_true rfl, hconducts.output]
          rfl
        case isFalse hflow =>
          rw [decide_eq_false hflow]
          exact List.append_nil _
      case raised =>
        intro flows hflows
        have hmem : call.flow ∈ flows :=
          hflows call (List.mem_append_right _ (List.mem_singleton_self call))
        rw [sum_raised_concat setup calls call flows hmem, step_call]
        exact (hseparate.raised flows fun c hc => hflows c (List.mem_append_left _ hc)).trans
          hconducts.raises
      case octets =>
        intro flow a hothers
        have hold := hseparate.octets flow a fun other hother harea =>
          hothers other hother (harea.concat call)
        rw [careerOf_concat]
        split
        case isTrue hflow =>
          subst hflow
          rw [step_call]
          exact (congrArg (fun m => m.octet a) hconducts.metadata).trans
            (call.pointwise_conduct _ a _ _ hold)
        case isFalse hflow =>
          rw [octet_concat setup calls call hbefore a (hothers call.flow hflow), hold]

/-- What was seen of every flow is the same, its aggregate is the same but for the names
    of its timer and its frame, the same octets are stored for it, and all counters show
    the same. -/
structure Resembles (w w' : World) : Prop where
  events : ∀ flow, w'.history.filter (Event.isOn flow) = w.history.filter (Event.isOn flow)
  pending : ∀ flow, (w'.engine.pending flow).map Pending.nameless
    = (w.engine.pending flow).map Pending.nameless
  stored : ∀ flow, (w'.engine.pending flow).map (fun p => w'.engine.services.stored? p.frame)
    = (w.engine.pending flow).map fun p => w.engine.services.stored? p.frame
  counters : ∀ address, w'.engine.services.counters.read address
    = w.engine.services.counters.read address

end World

/-- The calls on a flow are all that its career depends on. -/
theorem careerOf_congr {calls calls' : List Call} (setup : Setup) (flow : UInt64)
    (same : onFlow flow calls' = onFlow flow calls) :
    careerOf setup calls' flow = careerOf setup calls flow := by
  rw [careerOf, careerOf, same]

/-- Where a flow may write to is known from its own calls. -/
theorem inArea_congr {calls calls' : List Call} (flow address : UInt64)
    (same : onFlow flow calls' = onFlow flow calls) :
    InArea calls' flow address ↔ InArea calls flow address := by
  simp only [InArea, offersTo, same]

theorem mem_onFlow {calls : List Call} {call : Call} :
    call ∈ onFlow call.flow calls ↔ call ∈ calls := by
  simp only [onFlow, List.mem_filter, decide_true, and_true]

/-- A call of one order is one of the other. -/
theorem mem_of_onFlow {calls calls' : List Call}
    (same : ∀ flow, onFlow flow calls' = onFlow flow calls) {call : Call} (hcall : call ∈ calls') :
    call ∈ calls :=
  mem_onFlow.mp (same call.flow ▸ mem_onFlow.mpr hcall)

namespace World

variable {w w' : World} {setup : Setup} {calls calls' : List Call}

/-- Where the career of a flow is the same, so is its aggregate, and so is the frame. -/
theorem Backed.resembles (h : w.Backed) (h' : w'.Backed) (flow : UInt64)
    (same : w'.engine.solo? flow = w.engine.solo? flow) :
    (w'.engine.pending flow).map Pending.nameless
      = (w.engine.pending flow).map Pending.nameless ∧
    (w'.engine.pending flow).map (fun p => w'.engine.services.stored? p.frame)
      = (w.engine.pending flow).map fun p => w.engine.services.stored? p.frame := by
  have hview : ∀ v : World, v.Backed →
      (v.engine.pending flow).map Pending.nameless = (v.engine.solo? flow).map Solo.pending ∧
      (v.engine.pending flow).map (fun p => v.engine.services.stored? p.frame)
        = (v.engine.solo? flow).map fun solo => some solo.stored := by
    intro v hv
    rcases hp : v.engine.pending flow with _ | p
    · rw [Engine.solo?, hp]
      exact ⟨rfl, rfl⟩
    · rcases hv.solo?_some flow p hp with ⟨stored, hstored, hsolo⟩
      rw [hsolo]
      exact ⟨rfl, congrArg some hstored⟩
  -- So both are read off what the flow has when the names are left out.
  rw [(hview w h).1, (hview w h).2, (hview w' h').1, (hview w' h').2, same]
  exact ⟨rfl, rfl⟩

/-- Worlds in which every flow is as it would be by itself, after the same calls on every
    flow. -/
theorem Separate.resembles (h : w.Separate setup calls) (h' : w'.Separate setup calls')
    (backed : w.Backed) (backed' : w'.Backed)
    (same : ∀ flow, onFlow flow calls' = onFlow flow calls) : w.Resembles w' := by
  have hsolo : ∀ flow, w'.engine.solo? flow = w.engine.solo? flow := by
    intro flow
    rw [h'.standing, careerOf_congr setup flow (same flow), h.standing]
  constructor
  case events =>
    intro flow
    rw [h'.events, careerOf_congr setup flow (same flow), h.events]
  case pending => exact fun flow => (backed.resembles backed' flow (hsolo flow)).1
  case stored => exact fun flow => (backed.resembles backed' flow (hsolo flow)).2
  case counters =>
    intro address
    -- Both were raised by the careers of the same flows.
    have hraised := h.raised (calls.map Call.flow).toFinset fun call hcall =>
      List.mem_toFinset.mpr (List.mem_map_of_mem hcall)
    have hraised' := h'.raised (calls.map Call.flow).toFinset fun call hcall =>
      List.mem_toFinset.mpr (List.mem_map_of_mem (mem_of_onFlow same hcall))
    rw [Finset.sum_congr rfl fun flow _ =>
      congrArg Career.raised (careerOf_congr setup flow (same flow))] at hraised'
    exact UInt64.toNat_inj.mp ((hraised' address).trans (hraised address).symm)

/-- If no octet is in the areas of two flows, the metadata is the same as well. -/
theorem Separate.metadata (h : w.Separate setup calls) (h' : w'.Separate setup calls')
    (same : ∀ flow, onFlow flow calls' = onFlow flow calls)
    (disjoint : ∀ address flow other, InArea calls flow address → InArea calls other address →
      other = flow) (address : UInt64) :
    w'.engine.services.metadata.octet address = w.engine.services.metadata.octet address := by
  -- The octet is the business of one flow, or of none.
  have howner : ∃ owner, ∀ other, other ≠ owner → ¬ InArea calls other address := by
    by_cases howned : ∃ owner, InArea calls owner address
    · rcases howned with ⟨owner, howner⟩
      exact ⟨owner, fun other hother harea => hother (disjoint address owner other howner harea)⟩
    · exact ⟨0, fun other _ harea => howned ⟨other, harea⟩⟩
  rcases howner with ⟨owner, hothers⟩
  rw [h.octets owner address hothers, h'.octets owner address fun other hother harea =>
    hothers other hother ((inArea_congr other address (same other)).mp harea),
    careerOf_congr setup owner (same owner)]

end World

/-- Two orders of the same calls on several flows, in neither of which something is
    refused, come to the same for every flow and for the counters, and for the metadata if
    the areas of the flows are disjoint. No call of them touches a flow that it is not
    on. -/
theorem flows_apart (setup : Setup) (calls calls' : List Call)
    (same : ∀ flow, onFlow flow calls' = onFlow flow calls)
    (hstores : (World.serve setup calls).stores < 2 ^ 64)
    (hstores' : (World.serve setup calls').stores < 2 ^ 64)
    (granted : (World.serve setup calls).Granted)
    (granted' : (World.serve setup calls').Granted) :
    (World.serve setup calls).Resembles (World.serve setup calls') ∧
    ((∀ address flow other, InArea calls flow address → InArea calls other address →
      other = flow) →
      ∀ address, (World.serve setup calls').engine.services.metadata.octet address
        = (World.serve setup calls).engine.services.metadata.octet address) ∧
    ∀ before call after, calls = before ++ call :: after → ∀ other, other ≠ call.flow →
      (World.serve setup before).Spared (World.serve setup (before ++ [call])) other := by
  have hseparate := World.separate_serve setup calls hstores granted
  have hseparate' := World.separate_serve setup calls' hstores' granted'
  refine ⟨?_, ?_, ?_⟩
  · exact hseparate.resembles hseparate' (World.backed_run setup _ hstores)
      (World.backed_run setup _ hstores') same
  · exact fun disjoint => hseparate.metadata hseparate' same disjoint
  · rintro before call after rfl other hother
    have hbefore := Nat.lt_of_le_of_lt
      (World.stores_serve_le setup before (call :: after)) hstores
    rw [World.serve_concat]
    exact (World.backed_run setup _ hbefore).spared (World.tended_serve setup before) hbefore call
      other hother

/-- Two segments of one flow and one of another, which is left pending. -/
def inTurn : List Call := [
  .offer 7 (plainFrame 1 [1, 2]) plainPolicy { logSizes := true },
  .offer 8 (plainFrame 1 [4, 5, 6]) farPolicy { logSizes := true },
  .offer 7 (plainFrame 3 [3]) plainPolicy { logSizes := true },
  .flush 7
]

/-- The same calls in another order. -/
def outOfTurn : List Call := [
  .offer 8 (plainFrame 1 [4, 5, 6]) farPolicy { logSizes := true },
  .offer 7 (plainFrame 1 [1, 2]) plainPolicy { logSizes := true },
  .offer 7 (plainFrame 3 [3]) plainPolicy { logSizes := true },
  .flush 7
]

theorem flows_apart_outOfTurn :
    (World.serve {} inTurn).Resembles (World.serve {} outOfTurn) ∧
    (∀ address, (World.serve {} outOfTurn).engine.services.metadata.octet address
      = (World.serve {} inTurn).engine.services.metadata.octet address) ∧
    (World.serve {} (inTurn.take 3)).Spared (World.serve {} inTurn) 8 := by
  have hothers : ∀ flow, flow ≠ 7 → flow ≠ 8 →
      onFlow flow inTurn = [] ∧ onFlow flow outOfTurn = [] := by
    intro flow h7 h8
    simp only [onFlow, inTurn, outOfTurn, Call.flow, List.filter_cons, List.filter_nil,
      decide_eq_true_eq, h7.symm, h8.symm, if_false, and_self]
  have hsame : ∀ flow, onFlow flow outOfTurn = onFlow flow inTurn := by
    intro flow
    by_cases h7 : flow = 7
    · subst h7
      decide +kernel
    by_cases h8 : flow = 8
    · subst h8
      decide +kernel
    rw [(hothers flow h7 h8).1, (hothers flow h7 h8).2]
  -- An address that is in an area is in one of these two.
  have hareas : ∀ address flow, InArea inTurn flow address →
      (flow = 7 ∧ Metadata.offsetIn plainPolicy.metadata address
        < Metadata.areaLength plainPolicy.segmentLimit) ∨
      (flow = 8 ∧ Metadata.offsetIn farPolicy.metadata address
        < Metadata.areaLength farPolicy.segmentLimit) := by
    rintro address flow ⟨x, hx, y, hy, hlt⟩
    have h7 : ∀ x ∈ offersTo 7 inTurn, x.policy = plainPolicy := by decide +kernel
    have h8 : ∀ x ∈ offersTo 8 inTurn, x.policy = farPolicy := by decide +kernel
    by_cases hseven : flow = 7
    · subst hseven
      rw [h7 x hx, h7 y hy] at hlt
      exact Or.inl ⟨rfl, hlt⟩
    by_cases height : flow = 8
    · subst height
      rw [h8 x hx, h8 y hy] at hlt
      exact Or.inr ⟨rfl, hlt⟩
    rw [offersTo, (hothers flow hseven height).1] at hx
    cases hx
  have hapart : Metadata.Apart plainPolicy.metadata (Metadata.areaLength plainPolicy.segmentLimit)
      farPolicy.metadata (Metadata.areaLength farPolicy.segmentLimit) :=
    Metadata.apart_of_le (by decide) (by decide)
  have hresult := flows_apart {} inTurn outOfTurn hsame (by decide +kernel) (by decide +kernel)
    (by decide +kernel) (by decide +kernel)
  refine ⟨hresult.1, hresult.2.1 fun address flow other hflow hother => ?_,
    hresult.2.2 (inTurn.take 3) (.flush 7) [] rfl 8 (by decide)⟩
  rcases hareas address flow hflow with ⟨rfl, hin⟩ | ⟨rfl, hin⟩ <;>
    rcases hareas address other hother with ⟨rfl, hin'⟩ | ⟨rfl, hin'⟩
  · rfl
  · exact absurd ⟨hin, hin'⟩ (hapart address)
  · exact absurd ⟨hin', hin⟩ (hapart address)
  · rfl

/-- What is pending has another timer in the other order, and its frame another
    identifier. -/
example : ((World.serve {} inTurn).engine.pending 8).map (fun p => (p.timer.slot, p.frame))
    ≠ ((World.serve {} outOfTurn).engine.pending 8).map fun p => (p.timer.slot, p.frame) := by
  decide +kernel

end ReceiveOffload
