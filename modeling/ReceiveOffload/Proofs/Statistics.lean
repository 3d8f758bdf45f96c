import Mathlib.Algebra.BigOperators.Group.List.Basic
import ReceiveOffload.Proofs.Bills
import ReceiveOffload.Proofs.Dossiers
import ReceiveOffload.Proofs.Ownership

/-!
# The Statistics Balance

An engine has statistics to show, and somebody who watches it can keep count of
what happens. The two agree as long as no counter is full. Whatever storage and
timers do, every aggregate that is handed out, every refused timer, every segment
out of sequence, every request and every timer that ran out in time is counted
once, and every segment that was ever counted was handed out, is pending, or was
lost.

A segment can be lost in two ways. It is lost on arrival when it opens nothing and
nothing can be done with it, and then the caller is told and it was never counted
as part of an aggregation. Or it is lost with its aggregate, and then it was. Both
are counted as lost, so the first have to be taken off again in the balance.

The count is kept beside the run, from what is handed out and from what was
pending before. All calls have one policy, so there is one set of statistics for
all flows, and the segments that pend are those of all of them.

## Main definitions

* `World.seen`: What is seen of a trial.
* `Audit`, `Audit.run`: A world, and how often everything was seen.
* `World.statistic`: What a counter shows.
* `Audit.Balanced`: The statistics agree with what was seen.

## Theorems

* `Engine.Billed.lists`: What a call makes of the segments that pend.
* `World.billed_endure`: A trial has a bill.
* `statistics_balanced`: The statistics agree with what was seen of every run.
-/

namespace ReceiveOffload

/-- Whether a segment is for an aggregate that expects another sequence number. -/
def Engine.misplaced (engine : Engine) (flow : UInt64) (frame : Frame) : Bool :=
  match frame.segment?, engine.pending flow with
  | some segment, some p => segment.headers.seq ≠ p.nextSeq
  | _, _ => false

/-- Whether an expiry is for the timer of the aggregate that is pending. -/
def Engine.awaits (engine : Engine) (expiry : Expiry) : Bool :=
  (engine.pending expiry.flow).any fun p => p.timer = expiry.handle

/-- What is seen of a trial. -/
def World.seen (w : World) : Trial → Occurrence → Nat
  | .step (.offer flow frame policy extras) =>
    (if w.engine.misplaced flow frame then Occurrence.outOfSequence.once else 0)
      + (w.engine.offer flow frame policy extras).1.seen
  | .step (.flush flow) =>
    (if (w.engine.pending flow).isSome then Occurrence.flushRequested.once else 0)
      + (w.engine.flush flow).1.seen
  | .step (.deliver index) =>
    match w.expiries[index]? with
    | none => 0
    | some expiry =>
      (if w.engine.awaits expiry then Occurrence.timedOut.once else 0)
        + Pi.single .handedOut (w.engine.timeOut expiry).1.isSome.toNat
  | _ => 0

/-- What the counter of a statistic shows. -/
def World.statistic (w : World) (base : UInt64) (statistic : Statistic) : Nat :=
  (w.engine.services.counters.read (statistic.address base)).toNat

/-- A world, and how often everything was seen. -/
structure Audit where
  world : World
  seen : Occurrence → Nat := 0

namespace Audit

/-- What a trial comes to. -/
def endure (a : Audit) (trial : Trial) : Audit where
  world := a.world.endure trial
  seen := a.seen + a.world.seen trial

/-- What a list of trials comes to. -/
def run (setup : Setup) (trials : List Trial) : Audit :=
  trials.foldl endure { world := .start setup }

/-- Without the count, a run is a run of the roster. -/
theorem world_run (setup : Setup) (trials : List Trial) :
    (run setup trials).world = (Roster.run setup trials).world := by
  suffices h : ∀ (a : Audit) (r : Roster), a.world = r.world →
      (trials.foldl endure a).world = (trials.foldl Roster.endure r).world from h _ _ rfl
  induction trials with
  | nil => exact fun _ _ h => h
  | cons trial trials ih =>
      intro a r h
      exact ih (a.endure trial) (r.endure trial) (congrArg (fun w => w.endure trial) h)

/-- The statistics agree with what was seen. -/
structure Balanced (a : Audit) (base : UInt64) : Prop where
  /-- A segment that was counted was handed out, is pending, or was lost, but not
      on arrival. -/
  segments : ∃ active, a.world.engine.Lists active ∧
    a.world.statistic base .segments = a.world.statistic base .aggregatedSegments
      + (active.map fun entry => entry.2.segments).sum
      + (a.world.statistic base .discardedSegments - a.seen .segmentLost)
  lost : a.seen .segmentLost ≤ a.world.statistic base .discardedSegments
  aggregations : a.world.statistic base .aggregations = a.seen .handedOut
  timerUnavailable : a.world.statistic base .timerUnavailable = a.seen .timerRefused
  unexpectedSeq : a.world.statistic base .unexpectedSeq = a.seen .outOfSequence
  flushRequests : a.world.statistic base .flushRequests = a.seen .flushRequested
  timeoutFlushes : a.world.statistic base .timeoutFlushes = a.seen .timedOut

end Audit

/-- A call on one flow has a bill, and leaves an aggregate that is billed to the same
    base. -/
structure Engine.Billed (engine engine' : Engine) (base : UInt64) (seen : Occurrence → Nat)
    (flow : UInt64) : Prop where
  others : ∀ g, g ≠ flow → engine'.pending g = engine.pending g
  bills : engine.services.Bills engine'.services base seen
    (pendingSegments (engine.pending flow)) (pendingSegments (engine'.pending flow))
  booked : ∀ p, engine'.pending flow = some p → p.Booked base

namespace Engine

variable {engine engine' : Engine} {base : UInt64} {seen : Occurrence → Nat} {flow : UInt64}

/-- Everything that is pending is billed to this base. -/
def Booked (engine : Engine) (base : UInt64) : Prop :=
  ∀ flow p, engine.pending flow = some p → p.Booked base

theorem Billed.all (billed : engine.Billed engine' base seen flow) (booked : engine.Booked base) :
    engine'.Booked base := by
  intro g p hp
  by_cases hg : g = flow
  · exact billed.booked p (hg ▸ hp)
  · exact booked g p (billed.others g hg ▸ hp)

/-- What leaves the counters and all that is pending alone has an empty bill. -/
theorem billed_of_eq (flow : UInt64) (booked : engine.Booked base)
    (hpending : ∀ g, engine'.pending g = engine.pending g)
    (hcounters : engine'.services.counters = engine.services.counters) :
    engine.Billed engine' base 0 flow where
  others := fun g _ => hpending g
  bills := hpending flow ▸ .of_eq hcounters _
  booked := fun p hp => booked flow p (hpending flow ▸ hp)

/-- A call replaces what is listed for its flow. -/
theorem Lists.replace {active : List (UInt64 × Pending)} (lists : engine.Lists active)
    (flow : UInt64) (others : ∀ g, g ≠ flow → engine'.pending g = engine.pending g) :
    engine'.Lists ((engine'.pending flow).toList.map (fun p => (flow, p))
      ++ active.filter fun entry => entry.1 ≠ flow) := by
  constructor
  case nodup =>
    rw [List.map_append]
    refine List.nodup_append.mpr ⟨?_, lists.nodup.sublist (List.filter_sublist.map _), ?_⟩
    · rcases engine'.pending flow with _ | p
      · exact List.nodup_nil
      · exact List.nodup_singleton _
    · intro x hx y hy hsame
      rw [List.map_map] at hx
      rcases List.mem_map.mp hx with ⟨p, _, rfl⟩
      rcases List.mem_map.mp hy with ⟨entry, hentry, rfl⟩
      exact of_decide_eq_true (List.mem_filter.mp hentry).2 hsame.symm
  case mem_iff =>
    intro g p
    simp only [List.mem_append, List.mem_map, Option.mem_toList, Prod.mk.injEq, List.mem_filter,
      lists.mem_iff, decide_eq_true_eq]
    constructor
    · rintro (⟨q, hq, rfl, rfl⟩ | ⟨hp, hg⟩)
      · exact hq
      · exact (others g hg).trans hp
    · intro hp
      by_cases hg : g = flow
      · exact Or.inl ⟨p, hg ▸ hp, hg.symm, rfl⟩
      · exact Or.inr ⟨(others g hg).symm.trans hp, hg⟩

/-- What is pending is listed in one way only, but for the order. -/
theorem Lists.perm {active active' : List (UInt64 × Pending)} (lists : engine.Lists active)
    (lists' : engine.Lists active') : active.Perm active' := by
  refine (List.perm_ext_iff_of_nodup (.of_map _ lists.nodup) (.of_map _ lists'.nodup)).mpr ?_
  exact fun entry => (lists.mem_iff entry.1 entry.2).trans (lists'.mem_iff entry.1 entry.2).symm

/-- A call changes the number of segments that pend as it does for its flow. -/
theorem Lists.segments_replace {active : List (UInt64 × Pending)} (lists : engine.Lists active)
    (flow : UInt64) (others : ∀ g, g ≠ flow → engine'.pending g = engine.pending g) :
    ∃ active' rest, engine'.Lists active' ∧
      (active.map fun entry => entry.2.segments).sum
        = rest + pendingSegments (engine.pending flow) ∧
      (active'.map fun entry => entry.2.segments).sum
        = rest + pendingSegments (engine'.pending flow) := by
  have hsum : ∀ pending : Option Pending,
      ((pending.toList.map (fun p => (flow, p)) ++ active.filter fun entry => entry.1 ≠ flow).map
        fun entry => entry.2.segments).sum
      = ((active.filter fun entry => entry.1 ≠ flow).map fun entry => entry.2.segments).sum
        + pendingSegments pending := by
    intro pending
    rw [List.map_append, List.sum_append, Nat.add_comm]
    rcases pending with _ | p <;> rfl
  -- The list as it was can be put in the same order as the list as it is.
  have hbefore := lists.perm (lists.replace flow fun _ _ => rfl)
  refine ⟨_, _, lists.replace flow others, ?_, hsum _⟩
  rw [(hbefore.map _).sum_eq, hsum]

variable {policy : Policy}

/-- What a flow makes of a segment has a bill. -/
theorem turn_billed (engine : Engine) (flow : UInt64) (segment : Segment) (policy : Policy)
    (extras : Extras) (hextended : policy.extendedStatistics = true)
    (booked : engine.Booked policy.statistics) (frame : Frame)
    (hsegment : frame.segment? = some segment) :
    (engine.turn flow segment policy extras).Billed engine.services policy.statistics
      (engine.pending flow)
      (if engine.misplaced flow frame then Occurrence.outOfSequence.once else 0) := by
  unfold turn misplaced
  rw [hsegment]
  rcases hp : engine.pending flow with _ | p
  · exact engine.services.onIdle_billed flow segment policy extras hextended
  · simp only [decide_eq_true_eq]
    exact engine.services.onPending_billed flow p segment policy extras hextended (booked flow p hp)

/-- A frame that is refused may come with any policy. -/
theorem offer_billed (flow : UInt64) (frame : Frame) (policy policy' : Policy) (extras : Extras)
    (hextended : policy.extendedStatistics = true) (booked : engine.Booked policy.statistics)
    (hpolicy : ∀ segment, frame.segment? = some segment → policy' = policy) :
    engine.Billed (engine.offer flow frame policy' extras).2 policy.statistics
      ((if engine.misplaced flow frame then Occurrence.outOfSequence.once else 0)
        + (engine.offer flow frame policy' extras).1.seen) flow := by
  rcases hsegment : frame.segment? with _ | segment
  · rcases engine.offer_refused flow frame policy' extras hsegment with ⟨houtput, hleft⟩
    have hseen : (if engine.misplaced flow frame then Occurrence.outOfSequence.once else 0)
        + (engine.offer flow frame policy' extras).1.seen = 0 := by
      rw [houtput, misplaced, hsegment]
      funext o
      cases o <;> rfl
    rw [hseen]
    rcases hleft with hsame | ⟨cause, hsame⟩
    all_goals
      rw [hsame]
      exact billed_of_eq flow booked (fun _ => rfl) rfl
  · obtain rfl := hpolicy segment hsegment
    rcases engine.offer_accepted flow frame policy' extras segment hsegment with
      ⟨houtput, hpending, hservices⟩
    have hturn := engine.turn_billed flow segment policy' extras hextended booked frame hsegment
    have hflow := hpending flow
    rw [if_pos rfl] at hflow
    constructor
    case others => exact fun g hg => (hpending g).trans (if_neg hg)
    case bills =>
      rw [houtput, hservices, hflow]
      exact hturn.bills
    case booked => exact fun p hp => hturn.booked p (hflow ▸ hp)

theorem flush_billed (flow : UInt64) (booked : engine.Booked base) :
    engine.Billed (engine.flush flow).2 base
      ((if (engine.pending flow).isSome then Occurrence.flushRequested.once else 0)
        + (engine.flush flow).1.seen) flow := by
  rcases engine.flush_cases flow with ⟨hnone, houtput, hpending, hservices⟩ |
    ⟨p, hp, houtput, hpending, hservices⟩
  · have hseen : (if (engine.pending flow).isSome then Occurrence.flushRequested.once else 0)
        + (engine.flush flow).1.seen = 0 := by
      rw [hnone, houtput]
      funext o
      cases o <;> rfl
    rw [hseen]
    exact billed_of_eq flow booked hpending (by rw [hservices])
  · have hbooked := booked flow p hp
    -- The request is counted, and then the aggregate is closed.
    have hflushed : engine.flushed flow p
        = (((engine.services.releaseTimer p.timer).count p.statistics .flushRequests 1).note
          (.explicitFlush flow p.segments)).closeAggregate p := by
      unfold flushed
      rw [hbooked.extended]
      rfl
    have hcount : engine.services.Bills ((engine.services.releaseTimer p.timer).count p.statistics
        .flushRequests 1) base Occurrence.flushRequested.once p.segments p.segments :=
      hbooked.statistics ▸ (Services.bills_count _ _ _
        (by constructor <;> simp [Occurrence.once])).of_counters rfl rfl
    have hclose := (((engine.services.releaseTimer p.timer).count p.statistics .flushRequests
      1).note (.explicitFlush flow p.segments)).closeAggregate_bills p hbooked
    rw [← hflushed] at hclose
    have hflow := hpending flow
    rw [if_pos rfl] at hflow
    constructor
    case others => exact fun g hg => (hpending g).trans (if_neg hg)
    case bills =>
      rw [hp, hflow, houtput, hservices]
      refine (hcount.trans (hclose.of_counters rfl rfl)).of_seen ?_
      intro o
      rcases (engine.flushed flow p).1 with _ | aggregate <;> cases o <;> rfl
    case booked =>
      intro q hq
      rw [hflow] at hq
      cases hq

theorem expire_billed (expiry : Expiry) (booked : engine.Booked base) :
    engine.Billed (engine.expire expiry).2 base
      ((if engine.awaits expiry then Occurrence.timedOut.once else 0)
        + Pi.single .handedOut (engine.timeOut expiry).1.isSome.toNat) expiry.flow := by
  have hflows := (engine.expire_eq expiry).1
  have hcounters : (engine.expire expiry).2.services.counters
      = (engine.timeOut expiry).2.services.counters := by
    rcases engine.expire_noted expiry with hsame | ⟨length, hnoted⟩
    · rw [hsame]
    · rw [hnoted]
      rfl
  by_cases htimely : ∃ p, engine.pending expiry.flow = some p ∧ p.timer = expiry.handle
  · rcases htimely with ⟨p, hp, htimer⟩
    have hbooked := booked expiry.flow p hp
    have hawaits : engine.awaits expiry = true := by
      rw [awaits, hp]
      exact decide_eq_true htimer
    rcases engine.timeOut_timely expiry p hp htimer with ⟨haggregate, hpending, hservices⟩
    have hcount : engine.services.Bills (engine.services.count p.statistics .timeoutFlushes 1) base
        Occurrence.timedOut.once p.segments p.segments :=
      hbooked.statistics ▸ Services.bills_count _ _ _ (by constructor <;> simp [Occurrence.once])
    have hclose := ((engine.services.count p.statistics .timeoutFlushes 1).note
      (.timeoutFlush expiry.flow p.segments)).closeAggregate_bills p hbooked
    have hflow := (hflows expiry.flow).trans (hpending expiry.flow)
    rw [if_pos rfl] at hflow
    constructor
    case others => exact fun g hg => (hflows g).trans ((hpending g).trans (if_neg hg))
    case bills =>
      rw [if_pos hawaits, hp, hflow, haggregate]
      exact (hcount.trans (hclose.of_counters rfl rfl)).of_counters rfl
        (hcounters.trans (by rw [hservices]; rfl))
    case booked =>
      intro q hq
      rw [hflow] at hq
      cases hq
  · have hlate : ∀ p, engine.pending expiry.flow = some p → p.timer ≠ expiry.handle :=
      fun p hp htimer => htimely ⟨p, hp, htimer⟩
    have hawaits : engine.awaits expiry = false := by
      rw [awaits]
      rcases hp : engine.pending expiry.flow with _ | p
      · rfl
      · exact decide_eq_false (hlate p hp)
    rcases engine.timeOut_late expiry hlate with ⟨hnone, hpending, hservices⟩
    rw [hawaits, hnone]
    refine (Pi.single_zero (M := fun _ => Nat) Occurrence.handedOut).symm ▸ ?_
    exact billed_of_eq expiry.flow booked (fun g => (hflows g).trans (hpending g))
      (hcounters.trans (by rw [hservices]; rfl))

end Engine

/-- A trial has a bill for what is seen of it. -/
theorem World.billed_endure (w : World) (trial : Trial) (policy : Policy)
    (hextended : policy.extendedStatistics = true)
    (hpolicy : ∀ flow, ∀ x ∈ trial.offer? flow, x.policy = policy)
    (booked : w.engine.Booked policy.statistics) :
    ∃ flow, w.engine.Billed (w.endure trial).engine policy.statistics (w.seen trial) flow := by
  rcases trial with step | outages | timers
  · cases step with
    | offer flow frame policy' extras =>
        refine ⟨flow, w.engine.offer_billed flow frame policy policy' extras hextended booked ?_⟩
        intro segment hsegment
        exact hpolicy flow _ (Trial.offer?_of_segment? flow frame policy' extras segment hsegment)
    | flush flow => exact ⟨flow, w.engine.flush_billed flow booked⟩
    | advance elapsed => exact ⟨0, Engine.billed_of_eq 0 booked (fun _ => rfl) rfl⟩
    | deliver index =>
        rcases hexpiry : w.expiries[index]? with _ | expiry
        all_goals simp only [endure, step, seen, hexpiry]
        · exact ⟨0, Engine.billed_of_eq 0 booked (fun _ => rfl) rfl⟩
        · exact ⟨expiry.flow, w.engine.expire_billed expiry booked⟩
    | refuse store extend => exact ⟨0, Engine.billed_of_eq 0 booked (fun _ => rfl) rfl⟩
  · exact ⟨0, Engine.billed_of_eq 0 booked (fun _ => rfl) rfl⟩
  · exact ⟨0, Engine.billed_of_eq 0 booked (fun _ => rfl) rfl⟩

namespace Audit

variable {a : Audit} {policy : Policy}

/-- No counter of these statistics is full. -/
def Roomy (a : Audit) (base : UInt64) : Prop :=
  ∀ statistic, a.world.statistic base statistic < UInt64.size - 1

/-- What the counters show accounts for what was seen and for what is pending. -/
def Accounted (a : Audit) (base : UInt64) : Prop :=
  ∃ active, a.world.engine.Lists active ∧ Covers (a.world.statistic base) a.seen 0
    (active.map fun entry => entry.2.segments).sum

/-- The bill of a trial is added to what the counters show, so they stay in
    agreement. -/
theorem Accounted.endure {trial : Trial} {flow base : UInt64} (accounted : a.Accounted base)
    (billed : a.world.engine.Billed (a.world.endure trial).engine base (a.world.seen trial) flow)
    (roomy : (a.endure trial).Roomy base) : (a.endure trial).Accounted base := by
  rcases accounted with ⟨active, hlists, hcovers⟩
  rcases hlists.segments_replace flow billed.others with
    ⟨active', rest, hlists', hbefore, hafter⟩
  rcases billed.bills with ⟨amounts, hraised, hbill⟩
  have hshown : (a.endure trial).world.statistic base
      = a.world.statistic base + fun statistic => amounts (statistic.address base) := by
    funext statistic
    have hshows := hraised (statistic.address base)
    have hroom := roomy statistic
    simp only [World.statistic, Audit.endure, Pi.add_apply] at hroom ⊢
    omega
  refine ⟨active', hlists', ?_⟩
  rw [hshown, hafter]
  rw [hbefore] at hcovers
  exact hcovers.add (hbill.frame rest)

/-- Counters are never lowered, so there was room before. -/
theorem Roomy.before {trial : Trial} {flow base : UInt64} (roomy : (a.endure trial).Roomy base)
    (billed : a.world.engine.Billed (a.world.endure trial).engine base (a.world.seen trial) flow) :
    a.Roomy base := by
  rcases billed.bills with ⟨amounts, hraised, _⟩
  intro statistic
  have hshows := hraised (statistic.address base)
  have hroom := roomy statistic
  simp only [World.statistic, Audit.endure] at hroom ⊢
  omega

theorem accounted_run (setup : Setup) (trials : List Trial) (policy : Policy)
    (hextended : policy.extendedStatistics = true)
    (hpolicy : ∀ flow x, Offered trials flow x → x.policy = policy)
    (hstart : ∀ statistic : Statistic,
      setup.counters.read (statistic.address policy.statistics) = 0)
    (roomy : (run setup trials).Roomy policy.statistics) :
    (run setup trials).Accounted policy.statistics := by
  -- What is pending is billed to the base of the policy in any case.
  suffices h : (run setup trials).world.engine.Booked policy.statistics ∧
      ((run setup trials).Roomy policy.statistics →
        (run setup trials).Accounted policy.statistics) from h.2 roomy
  refine List.foldlRecOn (motive := fun a : Audit => a.world.engine.Booked policy.statistics ∧
    (a.Roomy policy.statistics → a.Accounted policy.statistics)) trials endure ?_ ?_
  · have hidle : ∀ flow, (World.start setup).engine.pending flow = none := fun _ => rfl
    have hlists : (World.start setup).engine.Lists [] :=
      ⟨List.nodup_nil, fun flow p => by simp only [List.not_mem_nil, hidle flow, reduceCtorEq]⟩
    refine ⟨fun flow p hp => ?_, fun _ => ⟨[], hlists, ?_⟩⟩
    · rw [show _ = _ from hidle flow] at hp
      cases hp
    have hzero : World.statistic (.start setup) policy.statistics = 0 :=
      funext fun statistic => congrArg UInt64.toNat (hstart statistic)
    rw [hzero]
    exact .zero 0
  · rintro a ⟨hbooked, haccounted⟩ trial htrial
    rcases a.world.billed_endure trial policy hextended
      (fun flow x hx => hpolicy flow x ⟨trial, htrial, hx⟩) hbooked with ⟨flow, hbilled⟩
    exact ⟨hbilled.all hbooked,
      fun hroom => (haccounted (hroom.before hbilled)).endure hbilled hroom⟩

end Audit

/-- In every run in which all calls have one policy and no counter is full, whatever
    storage and timers do, the statistics agree with what was seen. -/
theorem statistics_balanced (setup : Setup) (trials : List Trial) (policy : Policy)
    (hextended : policy.extendedStatistics = true)
    (hpolicy : ∀ flow x, Offered trials flow x → x.policy = policy)
    (hstart : ∀ statistic : Statistic,
      setup.counters.read (statistic.address policy.statistics) = 0)
    (hroom : ∀ statistic,
      (Audit.run setup trials).world.statistic policy.statistics statistic < UInt64.size - 1) :
    (Audit.run setup trials).Balanced policy.statistics := by
  rcases Audit.accounted_run setup trials policy hextended hpolicy hstart hroom with
    ⟨active, hlists, hcovers⟩
  have hsegments := hcovers.segments
    (Nat.lt_of_lt_of_le (hroom .segments) (Nat.sub_le _ _))
  have hlost := hcovers.lost
  exact {
    segments := ⟨active, hlists, by omega⟩
    lost := hlost
    aggregations := hcovers.aggregations
    timerUnavailable := hcovers.timerUnavailable
    unexpectedSeq := hcovers.unexpectedSeq
    flushRequests := hcovers.flushRequests
    timeoutFlushes := hcovers.timeoutFlushes
  }

/-- The usual policy with all that there is to count. -/
def countingPolicy : Policy :=
  { plainPolicy with extendedStatistics := true }

/-- Two segments that were merged are lost when the next one closes their aggregate,
    and one is lost on arrival. The others are closed on request, are closed by their
    timer, or still pend, and one finds no timer. -/
def counted : List Trial := [
  .step (.offer 7 (plainFrame 1 [1]) countingPolicy {}),
  .step (.offer 7 (plainFrame 2 [2]) countingPolicy {}),
  .refuse { store := [0], take := [0] },
  .step (.offer 8 (plainFrame 1 [9]) countingPolicy {}),
  .step (.offer 7 (plainFrame 9 [3]) countingPolicy {}),
  .step (.offer 8 (plainFrame 1 [9]) countingPolicy {}),
  .step (.flush 8),
  .step (.advance 100),
  .step (.deliver 0),
  .step (.offer 7 (plainFrame 1 [1]) countingPolicy {}),
  .retime {},
  .step (.offer 8 (plainFrame 1 [9]) countingPolicy {})
]

theorem statistics_balanced_counted :
    (∀ flow x, Offered counted flow x → x.policy = countingPolicy) ∧
      (Audit.run {} counted).world.engine.services.counters.statistics 0
        = [5, 1, 3, 2, 2, 1, 1, 1] ∧
      (Audit.run {} counted).seen .segmentLost = 1 ∧
      (Audit.run {} counted).Balanced countingPolicy.statistics := by
  have hpolicy : ∀ flow x, Offered counted flow x → x.policy = countingPolicy := by
    rintro flow x ⟨trial, htrial, hx⟩
    rcases trial.exists_of_offer? flow x hx with ⟨frame, _, rfl⟩
    simp only [counted, List.mem_cons, Trial.step.injEq, Step.offer.injEq, List.not_mem_nil,
      reduceCtorEq, false_or, or_false] at htrial
    rcases htrial with h | h | h | h | h | h | h <;> exact h.2.2.1
  have hroom : ∀ statistic, (Audit.run {} counted).world.statistic countingPolicy.statistics
      statistic < UInt64.size - 1 := by
    intro statistic
    cases statistic <;> decide +kernel
  exact ⟨hpolicy, by decide +kernel, by decide +kernel,
    statistics_balanced {} counted countingPolicy rfl hpolicy (fun _ => rfl) hroom⟩

end ReceiveOffload
