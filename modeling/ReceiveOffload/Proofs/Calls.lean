import ReceiveOffload.Engine

/-!
# What a Call Does to the Flows

A call takes hold of the record of one flow, works on a copy and writes it back.
Seen from outside, that is one value replaced by another: the aggregate pending
on that flow. Shards, records and guards are how it is done, and nothing above
this module has to know of them.

Each call is told as two cases. Either it has nothing to do, and then nothing
that is pending has changed, or it leaves what its turn leaves.

## Main definitions

* `Frame.segment?`: The segment that a frame is taken for.
* `Engine.turn`: What a flow makes of a segment.
* `Engine.Unchanged`: Nothing has changed but for notices.

## Theorems

* `Services.onPending_cases`: What a flow makes of a segment if something is
  pending.
* `FlowStore.snapshot_commit`, `FlowStore.snapshot_abort`: What was committed
  last once a record is let go of.
* `Engine.offer_refused`, `Engine.offer_accepted`, `Engine.offer_cases`,
  `Engine.flush_cases`: Segments and requests to close.
* `Engine.timeOut_late`, `Engine.timeOut_timely`, `Engine.timeOut_cases`: Timers
  that ran out.
* `Engine.expire_eq`: Who is told makes no difference to the flows.
-/

namespace ReceiveOffload

namespace FlowStore

/-- Replacing the record of one flow leaves the records of the others, in
    whatever shard they lie. -/
theorem record_setRecord (store : FlowStore) (a b : UInt64) (r : FlowRecord) :
    (store.setRecord a r).record b = if a = b then r else store.record b := by
  have hshard : ∀ c, (store.setRecord a r).shardOf c = store.shardOf c := fun _ => rfl
  simp only [record, shard, hshard, Table.getD]
  simp only [setRecord, Table.get?_insert]
  by_cases hab : a = b
  · subst hab
    simp only [if_true, Option.getD_some, Table.get?_insert]
  · -- Another flow lies in another shard, or in the same one under another key.
    by_cases hsame : store.shardOf a = store.shardOf b
    · simp only [hsame, hab, if_true, if_false, Option.getD_some, Table.get?_insert, shard,
        Table.getD]
    · simp only [hsame, hab, if_false]

theorem working_lock (store : FlowStore) (a : UInt64) :
    (store.lock a).1.working = store.snapshot a := rfl

/-- A copy that is committed shows, and nothing else changes. -/
theorem snapshot_commit (store : FlowStore) (a b : UInt64) (working : Option Pending) :
    ((store.lock a).2.commit { (store.lock a).1 with working }).snapshot b
      = if b = a then working else store.snapshot b := by
  simp only [commit, lock, snapshot, record_setRecord]
  by_cases hab : a = b
  · simp only [hab, if_true]
  · rw [if_neg hab, if_neg hab, if_neg (fun h => hab h.symm)]

/-- A record that is given up is as it was. -/
theorem snapshot_abort (store : FlowStore) (a b : UInt64) :
    ((store.lock a).2.abort (store.lock a).1).snapshot b = store.snapshot b := by
  simp only [abort, lock, snapshot, record_setRecord]
  by_cases hab : a = b
  · simp only [hab, if_true]
  · rw [if_neg hab, if_neg hab]

end FlowStore

/-- A segment is appended to what is pending, or that is closed ahead of it. What
    is noted and counted before has nothing to do with storage, timers or
    metadata. -/
theorem Services.onPending_cases (s : Services) (flow : UInt64) (p : Pending) (segment : Segment)
    (policy : Policy) (extras : Extras) :
    (p.verdict segment policy = .merge ∧
      s.onPending flow p segment policy extras = s.merge flow p segment) ∨
    (p.verdict segment policy = .mergeThenClose ∧
      s.onPending flow p segment policy extras = s.mergeThenClose flow p segment) ∨
    (p.verdict segment policy ≠ .merge ∧ p.verdict segment policy ≠ .mergeThenClose ∧
      ∃ s' : Services, s'.frames = s.frames ∧ s'.timers = s.timers ∧ s'.metadata = s.metadata ∧
        ((segment.canOpen policy = true ∧ s.onPending flow p segment policy extras
          = s'.closeThenOpen flow p segment policy extras) ∨
        (segment.canOpen policy = false ∧ s.onPending flow p segment policy extras
          = s'.closeThenPass flow p segment policy))) := by
  -- Three verdicts close the aggregate, and differ in what they note before.
  have hclose : ∀ noted : Services, noted.frames = s.frames → noted.timers = s.timers →
      noted.metadata = s.metadata → ∃ s' : Services,
        s'.frames = s.frames ∧ s'.timers = s.timers ∧ s'.metadata = s.metadata ∧
        ((segment.canOpen policy = true ∧ noted.closeAround flow p segment policy extras
          = s'.closeThenOpen flow p segment policy extras) ∨
        (segment.canOpen policy = false ∧ noted.closeAround flow p segment policy extras
          = s'.closeThenPass flow p segment policy)) := by
    intro noted hframes htimers hmetadata
    refine ⟨noted, hframes, htimers, hmetadata, ?_⟩
    unfold closeAround
    by_cases hopens : segment.canOpen policy = true
    · exact Or.inl ⟨hopens, if_pos hopens⟩
    · exact Or.inr ⟨Bool.eq_false_iff.mpr hopens, if_neg hopens⟩
  unfold onPending
  rcases p.verdict segment policy with _ | _ | _ | _ | size
  · exact Or.inl ⟨rfl, rfl⟩
  · exact Or.inr (Or.inl ⟨rfl, rfl⟩)
  all_goals
    refine Or.inr (Or.inr ⟨nofun, nofun, ?_⟩)
    exact hclose _ rfl rfl rfl

/-- The segment that a frame is taken for, unless the frame is refused. -/
def Frame.segment? (frame : Frame) : Option Segment :=
  if frame.damaged then none else (Segment.ofFrame frame).toOption

theorem Frame.segment?_eq_some_iff (frame : Frame) (segment : Segment) :
    frame.segment? = some segment ↔
      frame.damaged = false ∧ Segment.ofFrame frame = .ok segment := by
  unfold segment?
  by_cases hdamaged : frame.damaged = true
  · simp only [hdamaged, if_true, reduceCtorEq, false_and]
  · rw [if_neg hdamaged, Bool.not_eq_true] at *
    rcases Segment.ofFrame frame with cause | segment' <;>
      simp only [hdamaged, Except.toOption, reduceCtorEq, and_false, true_and, Option.some.injEq,
        Except.ok.injEq]

namespace Engine

/-- What a flow makes of a segment. -/
def turn (engine : Engine) (flow : UInt64) (segment : Segment) (policy : Policy)
    (extras : Extras) : Turn :=
  match engine.pending flow with
  | none => engine.services.onIdle flow segment policy extras
  | some p => engine.services.onPending flow p segment policy extras

/-- Nothing but a notice tells the engines apart: what is pending, what is
    stored, the timers, the counters and the metadata are the same. -/
structure Unchanged (engine engine' : Engine) : Prop where
  pending : ∀ g, engine'.pending g = engine.pending g
  frames : engine'.services.frames = engine.services.frames
  timers : engine'.services.timers = engine.services.timers
  counters : engine'.services.counters = engine.services.counters
  metadata : engine'.services.metadata = engine.services.metadata

/-- A frame that is taken for no segment is handed back, and all that is left of
    it is a notice. -/
theorem offer_refused (engine : Engine) (flow : UInt64) (frame : Frame) (policy : Policy)
    (extras : Extras) (h : frame.segment? = none) :
    (engine.offer flow frame policy extras).1 = .handBack { badFrame := true } frame ∧
      ((engine.offer flow frame policy extras).2 = engine ∨ ∃ cause,
        (engine.offer flow frame policy extras).2 = engine.note (.frameRejected flow cause)) := by
  unfold Frame.segment? at h
  unfold offer
  by_cases hdamaged : frame.damaged = true
  · rw [if_pos hdamaged]
    exact ⟨rfl, Or.inl rfl⟩
  rw [if_neg hdamaged] at h ⊢
  rcases hsegment : Segment.ofFrame frame with cause | segment
  · exact ⟨rfl, Or.inr ⟨_, rfl⟩⟩
  · rw [hsegment] at h
    cases h

/-- A frame that is taken for a segment leaves what the turn of its flow
    leaves. -/
theorem offer_accepted (engine : Engine) (flow : UInt64) (frame : Frame) (policy : Policy)
    (extras : Extras) (segment : Segment) (h : frame.segment? = some segment) :
    (engine.offer flow frame policy extras).1 = (engine.turn flow segment policy extras).output ∧
      (∀ g, (engine.offer flow frame policy extras).2.pending g
        = if g = flow then (engine.turn flow segment policy extras).flow
          else engine.pending g) ∧
      (engine.offer flow frame policy extras).2.services
        = (engine.turn flow segment policy extras).services := by
  rcases (frame.segment?_eq_some_iff segment).mp h with ⟨hdamaged, hsegment⟩
  simp only [offer, hdamaged, Bool.false_eq_true, if_false, hsegment]
  -- The record that is locked is split first, since the turn matches on it too.
  rcases hworking : engine.flows.snapshot flow with _ | p
  all_goals
    simp only [FlowStore.working_lock, turn, pending, hworking, FlowStore.snapshot_commit,
      implies_true, and_self]

/-- An offered segment is refused and changes nothing, or it leaves what the
    turn of its flow leaves. -/
theorem offer_cases (engine : Engine) (flow : UInt64) (frame : Frame) (policy : Policy)
    (extras : Extras) :
    ((engine.offer flow frame policy extras).1 = .handBack { badFrame := true } frame ∧
      (∀ g, (engine.offer flow frame policy extras).2.pending g = engine.pending g) ∧
      (engine.offer flow frame policy extras).2.services.frames = engine.services.frames ∧
      (engine.offer flow frame policy extras).2.services.timers = engine.services.timers) ∨
    ∃ segment, Segment.ofFrame frame = .ok segment ∧
      (engine.offer flow frame policy extras).1 = (engine.turn flow segment policy extras).output ∧
      (∀ g, (engine.offer flow frame policy extras).2.pending g
        = if g = flow then (engine.turn flow segment policy extras).flow
          else engine.pending g) ∧
      (engine.offer flow frame policy extras).2.services
        = (engine.turn flow segment policy extras).services := by
  rcases hsegment : frame.segment? with _ | segment
  · rcases engine.offer_refused flow frame policy extras hsegment with
      ⟨houtput, heq | ⟨cause, heq⟩⟩
    all_goals
      rw [heq]
      exact Or.inl ⟨houtput, fun _ => rfl, rfl, rfl⟩
  · exact Or.inr ⟨segment, ((frame.segment?_eq_some_iff segment).mp hsegment).2,
      engine.offer_accepted flow frame policy extras segment hsegment⟩

/-- What closing on request makes of the services: the timer is given back, the
    request is counted, and the aggregate is closed. -/
def flushed (engine : Engine) (flow : UInt64) (p : Pending) : Option Aggregate × Services :=
  let s := engine.services.releaseTimer p.timer
  let s := if p.extendedStatistics then s.count p.statistics .flushRequests 1 else s
  (s.note (.explicitFlush flow p.segments)).closeAggregate p

/-- There is nothing to flush, or what is pending is closed. -/
theorem flush_cases (engine : Engine) (flow : UInt64) :
    (engine.pending flow = none ∧
      (engine.flush flow).1 = { disposition := { noAggregation := true } } ∧
      (∀ g, (engine.flush flow).2.pending g = engine.pending g) ∧
      (engine.flush flow).2.services = engine.services) ∨
    ∃ p, engine.pending flow = some p ∧
      (engine.flush flow).1
        = .ofClosing (engine.flushed flow p).1 { flushAggregationDone := true } ∧
      (∀ g, (engine.flush flow).2.pending g = if g = flow then none else engine.pending g) ∧
      (engine.flush flow).2.services = (engine.flushed flow p).2 := by
  unfold flush
  simp only [FlowStore.working_lock]
  rcases hpending : engine.pending flow with _ | p <;> simp only [pending] at hpending
  · refine Or.inl ⟨rfl, ?_, ?_, ?_⟩
    · simp only [hpending]
    · intro g
      simp only [hpending, pending, FlowStore.snapshot_abort]
    · simp only [hpending]
  · refine Or.inr ⟨p, rfl, ?_, ?_, ?_⟩
    · simp only [hpending]
      rfl
    · intro g
      simp only [hpending, pending, FlowStore.snapshot_commit]
    · simp only [hpending]
      rfl

/-- What a timer that ran out makes of the services: the request is counted and
    the aggregate closed, and only then is the timer given back. -/
def timedOut (engine : Engine) (expiry : Expiry) (p : Pending) : Option Aggregate × Services :=
  ((engine.services.count p.statistics .timeoutFlushes 1).note
    (.timeoutFlush expiry.flow p.segments)).closeAggregate p

/-- A late expiry leaves what is pending alone, and acknowledges its timer. -/
theorem timeOut_late (engine : Engine) (expiry : Expiry)
    (hlate : ∀ p, engine.pending expiry.flow = some p → p.timer ≠ expiry.handle) :
    (engine.timeOut expiry).1 = none ∧
      (∀ g, (engine.timeOut expiry).2.pending g = engine.pending g) ∧
      (engine.timeOut expiry).2.services = (engine.services.acknowledgeTimer expiry.handle).note
        (.staleTimer expiry.flow expiry.handle) := by
  unfold timeOut
  simp only [FlowStore.working_lock]
  rcases hpending : engine.flows.snapshot expiry.flow with _ | p
  · simp only [pending, FlowStore.snapshot_abort, implies_true, and_self]
  · -- The flow has opened another aggregate since, and that has another timer.
    simp only [ne_eq, hlate p hpending, not_false_eq_true, if_true, pending,
      FlowStore.snapshot_abort, implies_true, and_self]

/-- An expiry that is for the timer of the pending aggregate closes it. -/
theorem timeOut_timely (engine : Engine) (expiry : Expiry) (p : Pending)
    (hpending : engine.pending expiry.flow = some p) (htimer : p.timer = expiry.handle) :
    (engine.timeOut expiry).1 = (engine.timedOut expiry p).1 ∧
      (∀ g, (engine.timeOut expiry).2.pending g
        = if g = expiry.flow then none else engine.pending g) ∧
      (engine.timeOut expiry).2.services
        = (engine.timedOut expiry p).2.acknowledgeTimer expiry.handle := by
  unfold pending at hpending
  unfold timeOut
  simp only [FlowStore.working_lock, hpending, ne_eq, htimer, not_true_eq_false, if_false, pending,
    FlowStore.snapshot_commit, implies_true, true_and]
  exact ⟨rfl, rfl⟩

/-- An expiry is late and changes nothing that is pending, or its aggregate is
    closed. -/
theorem timeOut_cases (engine : Engine) (expiry : Expiry) :
    ((∀ p, engine.pending expiry.flow = some p → p.timer ≠ expiry.handle) ∧
      (engine.timeOut expiry).1 = none ∧
      (∀ g, (engine.timeOut expiry).2.pending g = engine.pending g) ∧
      (engine.timeOut expiry).2.services.frames = engine.services.frames ∧
      (engine.timeOut expiry).2.services.timers
        = engine.services.timers.acknowledge expiry.handle) ∨
    ∃ p, engine.pending expiry.flow = some p ∧ p.timer = expiry.handle ∧
      (engine.timeOut expiry).1 = (engine.timedOut expiry p).1 ∧
      (∀ g, (engine.timeOut expiry).2.pending g
        = if g = expiry.flow then none else engine.pending g) ∧
      (engine.timeOut expiry).2.services
        = (engine.timedOut expiry p).2.acknowledgeTimer expiry.handle := by
  by_cases htimely : ∃ p, engine.pending expiry.flow = some p ∧ p.timer = expiry.handle
  · rcases htimely with ⟨p, hp, htimer⟩
    exact Or.inr ⟨p, hp, htimer, engine.timeOut_timely expiry p hp htimer⟩
  · have hlate : ∀ p, engine.pending expiry.flow = some p → p.timer ≠ expiry.handle :=
      fun p hp htimer => htimely ⟨p, hp, htimer⟩
    rcases engine.timeOut_late expiry hlate with ⟨hnone, hpending, hservices⟩
    refine Or.inl ⟨hlate, hnone, hpending, ?_, ?_⟩
    · rw [hservices]
      rfl
    · rw [hservices]
      rfl

/-- Where nothing was closed, there is nobody to tell. -/
theorem expire_of_none (engine : Engine) (expiry : Expiry)
    (h : (engine.timeOut expiry).1 = none) :
    engine.expire expiry = (none, (engine.timeOut expiry).2) := by
  unfold expire
  simp only [h]

/-- Where an aggregate was closed and there is nobody to tell, that is noted. -/
theorem expire_noted (engine : Engine) (expiry : Expiry) :
    (engine.expire expiry).2 = (engine.timeOut expiry).2 ∨
      ∃ length, (engine.expire expiry).2
        = (engine.timeOut expiry).2.note (.nobodyToTell expiry.flow length) := by
  unfold expire
  rcases engine.timeOut expiry with ⟨_ | aggregate, left⟩
  · exact Or.inl rfl
  · rcases expiry.completion with _ | completion
    · exact Or.inr ⟨_, rfl⟩
    · exact Or.inl rfl

/-- Who is told makes no difference to the flows, the storage and the timers. -/
theorem expire_eq (engine : Engine) (expiry : Expiry) :
    (∀ g, (engine.expire expiry).2.pending g = (engine.timeOut expiry).2.pending g) ∧
      (engine.expire expiry).2.services.frames = (engine.timeOut expiry).2.services.frames ∧
      (engine.expire expiry).2.services.timers = (engine.timeOut expiry).2.services.timers := by
  rcases engine.expire_noted expiry with hsame | ⟨length, hnoted⟩
  · rw [hsame]
    exact ⟨fun _ => rfl, rfl, rfl⟩
  · rw [hnoted]
    exact ⟨fun _ => rfl, rfl, rfl⟩

end Engine

end ReceiveOffload
