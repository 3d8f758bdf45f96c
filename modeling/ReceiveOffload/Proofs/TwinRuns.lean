import ReceiveOffload.Proofs.Trials
import ReceiveOffload.Proofs.Twins

/-!
# Runs That Differ in Their Books

The same happens to two engines. Segments arrive in the same order, the clock
moves, expiries are delivered, storage refuses and timers are taken away. Only
what the callers choose besides may differ from call to call: the extras of an
aggregate, and where its books are kept and how many there are.

Then nobody can tell the two apart by what the engines do. They hand out the same
frames in the same calls and say the same of them, timers are armed and run out at
the same times, storage holds the same frames, and the same receivers are told of
the same aggregates. What differs is what was chosen: the checksum of an aggregate
of several segments, and the books.

## Main definitions

* `Trial.bare`: A trial without the choices.
* `Delivery.Twins`, `Event.Twins`: What is seen is the same but for checksums.
* `Engine.Twins`, `World.Twins`: Nothing is different but the books.

## Theorems

* `Engine.Twins.offer`, `Engine.Twins.flush`, `Engine.Twins.expire`: Calls.
* `World.Twins.endure`: A trial.
* `twins_run`: Runs of the same trials but for the choices.
-/

namespace ReceiveOffload

/-- The trial without what a caller chooses besides. -/
def Trial.bare : Trial → Trial
  | .step (.offer flow frame policy _) => .step (.offer flow frame policy.bare {})
  | trial => trial

/-- Receivers are told the same but for the checksum of the aggregate. -/
structure Delivery.Twins (a b : Delivery) : Prop where
  flow : b.flow = a.flow
  aggregate : a.aggregate.Twins b.aggregate
  completion : b.completion = a.completion

/-- The same is seen but for checksums. -/
inductive Event.Twins : Event → Event → Prop
  | offered (flow : UInt64) (frame : Frame) {a b : Output} (h : a.Twins b) :
      Twins (.offered flow frame a) (.offered flow frame b)
  | flushed (flow : UInt64) {a b : Output} (h : a.Twins b) :
      Twins (.flushed flow a) (.flushed flow b)
  | ranOut (expiries : List Expiry) : Twins (.ranOut expiries) (.ranOut expiries)
  | delivered (expiry : Expiry) {a b : Option Aggregate} (h : Option.Rel Aggregate.Twins a b) :
      Twins (.delivered expiry a) (.delivered expiry b)

/-- Nothing is different but what flows have in their books. -/
structure Engine.Twins (a b : Engine) : Prop where
  pending : ∀ flow, (b.pending flow).map Pending.bare = (a.pending flow).map Pending.bare
  services : a.services.Twins b.services

/-- The engines are twins, and what was seen of them is the same but for
    checksums. -/
structure World.Twins (w v : World) : Prop where
  engine : w.engine.Twins v.engine
  history : List.Forall₂ Event.Twins w.history v.history

/-- Trials that are the same but for the choices are the same, or both offer the
    same segment. -/
theorem Trial.cases_of_bare {trial trial' : Trial} (h : trial'.bare = trial.bare) :
    trial' = trial ∨ ∃ flow frame policy policy' extras extras',
      trial = .step (.offer flow frame policy extras) ∧
      trial' = .step (.offer flow frame policy' extras') ∧ policy'.bare = policy.bare := by
  unfold bare at h
  split at h <;> split at h
  -- Only an offer has anything to lose, so both trials are offers or neither is.
  · simp only [step.injEq, Step.offer.injEq, and_true] at h
    rcases h with ⟨rfl, rfl, hpolicy⟩
    exact Or.inr ⟨_, _, _, _, _, _, rfl, rfl, hpolicy⟩
  · rename_i hother
    exact absurd h.symm (hother _ _ _ _)
  · rename_i hother _ _ _ _ _
    exact absurd h (hother _ _ _ _)
  · exact Or.inl h

namespace Engine.Twins

variable {a b : Engine}

/-- The same flows have something pending, and it is the same but for the books. -/
theorem pending_cases (h : a.Twins b) (flow : UInt64) :
    (a.pending flow = none ∧ b.pending flow = none) ∨
      ∃ p q, a.pending flow = some p ∧ b.pending flow = some q ∧ q.bare = p.bare := by
  have hpending := h.pending flow
  rcases hp : a.pending flow with _ | p <;> rcases hq : b.pending flow with _ | q
  all_goals rw [hp, hq] at hpending
  · exact Or.inl ⟨rfl, rfl⟩
  · cases hpending
  · cases hpending
  · exact Or.inr ⟨p, q, rfl, rfl, Option.some.inj hpending⟩

/-- A notice changes neither what is pending nor the services. -/
theorem note (h : a.Twins b) (notice notice' : Notice) : (a.note notice).Twins (b.note notice') :=
  ⟨h.pending, h.services.note notice notice'⟩

/-- Services that are twins may be put in the place of services that are. -/
theorem of_services (h : a.Twins b) {s t : Services} (services : s.Twins t) :
    Engine.Twins { a with services := s } { b with services := t } :=
  ⟨h.pending, services⟩

/-- What a call leaves to its flow, and what it leaves to the others. -/
theorem of_call (h : a.Twins b) {a' b' : Engine} (flow : UInt64) {x y : Option Pending}
    (ha : ∀ g, a'.pending g = if g = flow then x else a.pending g)
    (hb : ∀ g, b'.pending g = if g = flow then y else b.pending g)
    (hflow : y.map Pending.bare = x.map Pending.bare) (services : a'.services.Twins b'.services) :
    a'.Twins b' where
  pending := by
    intro g
    rw [ha, hb]
    split
    · exact hflow
    · exact h.pending g
  services := services

/-- Twins that are offered the same segment answer alike, whatever their callers choose
    for the aggregate besides. -/
theorem offer (h : a.Twins b) (flow : UInt64) (frame : Frame) {policy policy' : Policy}
    (hpolicy : policy'.bare = policy.bare) (extras extras' : Extras) :
    (a.offer flow frame policy extras).1.Twins (b.offer flow frame policy' extras').1 ∧
      (a.offer flow frame policy extras).2.Twins (b.offer flow frame policy' extras').2 := by
  rcases hsegment : frame.segment? with _ | segment
  case none =>
    rcases a.offer_refused flow frame policy extras hsegment with ⟨ha, hleft⟩
    rcases b.offer_refused flow frame policy' extras' hsegment with ⟨hb, hleft'⟩
    rw [ha, hb]
    refine ⟨.silent _ rfl, ?_⟩
    rcases hleft with hleft | ⟨cause, hleft⟩ <;> rcases hleft' with hleft' | ⟨cause', hleft'⟩
    all_goals
      rw [hleft, hleft']
      exact ⟨h.pending, h.services.congr ⟨rfl, rfl⟩ ⟨rfl, rfl⟩⟩
  case some =>
    rcases a.offer_accepted flow frame policy extras segment hsegment with ⟨ha, hpa, hsa⟩
    rcases b.offer_accepted flow frame policy' extras' segment hsegment with ⟨hb, hpb, hsb⟩
    have hturn : (a.turn flow segment policy extras).Twins
        (b.turn flow segment policy' extras') := by
      unfold turn
      rcases h.pending_cases flow with ⟨hp, hq⟩ | ⟨p, q, hp, hq, hsame⟩
      all_goals rw [hp, hq]
      · exact Services.onIdle_twins h.services flow segment hpolicy extras extras'
      · exact Services.onPending_twins h.services flow hsame segment hpolicy extras extras'
    rw [ha, hb]
    exact ⟨hturn.output, h.of_call flow hpa hpb hturn.flow (hsa ▸ hsb ▸ hturn.services)⟩

theorem flush (h : a.Twins b) (flow : UInt64) :
    (a.flush flow).1.Twins (b.flush flow).1 ∧ (a.flush flow).2.Twins (b.flush flow).2 := by
  have hpending := h.pending flow
  rcases a.flush_cases flow with ⟨hp, ha, hpa, hsa⟩ | ⟨p, hp, ha, hpa, hsa⟩ <;>
    rcases b.flush_cases flow with ⟨hq, hb, hpb, hsb⟩ | ⟨q, hq, hb, hpb, hsb⟩
  all_goals rw [hp, hq] at hpending
  · rw [ha, hb]
    refine ⟨.silent _ rfl, fun g => ?_, hsa ▸ hsb ▸ h.services⟩
    rw [hpa, hpb]
    exact h.pending g
  · cases hpending
  · cases hpending
  · have hsame : q.bare = p.bare := Option.some.inj hpending
    have htimer : q.timer = p.timer := show q.bare.timer = p.bare.timer by rw [hsame]
    -- The request is counted for one flow and perhaps not for the other.
    have hclosed : Services.Related (Option.Rel Aggregate.Twins) (a.flushed flow p)
        (b.flushed flow q) := by
      unfold flushed
      rw [htimer]
      refine Services.closeAggregate_twins
        ((h.services.releaseTimer p.timer).congr ⟨?_, ?_⟩ ⟨?_, ?_⟩) hsame
      all_goals split <;> rfl
    rw [ha, hb]
    generalize a.flushed flow p = x, b.flushed flow q = y at hclosed hsa hsb ⊢
    rcases hclosed with ⟨hgiven, hleft⟩
    exact ⟨.ofClosing hgiven _, h.of_call flow hpa hpb rfl (hsa ▸ hsb ▸ hleft)⟩

/-- An expiry closes the same aggregate of both or comes too late for both, as the timer
    of a pending aggregate is not a choice. -/
theorem timeOut (h : a.Twins b) (expiry : Expiry) :
    Option.Rel Aggregate.Twins (a.timeOut expiry).1 (b.timeOut expiry).1 ∧
      (a.timeOut expiry).2.Twins (b.timeOut expiry).2 := by
  rcases h.pending_cases expiry.flow with ⟨hp, hq⟩ | ⟨p, q, hp, hq, hsame⟩
  -- Three cases: nothing is pending, the timer of what is pending is a newer one, or the expiry
  -- is in time.
  case inl =>
    rcases a.timeOut_late expiry (by simp [hp]) with ⟨ha, hpa, hsa⟩
    rcases b.timeOut_late expiry (by simp [hq]) with ⟨hb, hpb, hsb⟩
    rw [ha, hb]
    refine ⟨.none, fun g => ?_, ?_⟩
    · rw [hpa, hpb]
      exact h.pending g
    · rw [hsa, hsb]
      exact (h.services.acknowledgeTimer _).note _ _
  have htimer : q.timer = p.timer := show q.bare.timer = p.bare.timer by rw [hsame]
  by_cases hhandle : p.timer = expiry.handle
  case neg =>
    rcases a.timeOut_late expiry (by simpa [hp] using hhandle) with ⟨ha, hpa, hsa⟩
    rcases b.timeOut_late expiry (by simpa [hq, htimer] using hhandle) with ⟨hb, hpb, hsb⟩
    rw [ha, hb]
    refine ⟨.none, fun g => ?_, ?_⟩
    · rw [hpa, hpb]
      exact h.pending g
    · rw [hsa, hsb]
      exact (h.services.acknowledgeTimer _).note _ _
  case pos =>
    rcases a.timeOut_timely expiry p hp hhandle with ⟨ha, hpa, hsa⟩
    rcases b.timeOut_timely expiry q hq (htimer.trans hhandle) with ⟨hb, hpb, hsb⟩
    have hclosed : Services.Related (Option.Rel Aggregate.Twins) (a.timedOut expiry p)
        (b.timedOut expiry q) :=
      Services.closeAggregate_twins (h.services.congr ⟨rfl, rfl⟩ ⟨rfl, rfl⟩) hsame
    rw [ha, hb]
    generalize a.timedOut expiry p = x, b.timedOut expiry q = y at hclosed hsa hsb ⊢
    rcases hclosed with ⟨hgiven, hleft⟩
    exact ⟨hgiven, h.of_call expiry.flow hpa hpb rfl
      (hsa ▸ hsb ▸ hleft.acknowledgeTimer expiry.handle)⟩

/-- The same receivers are told of an expiry. -/
theorem expire (h : a.Twins b) (expiry : Expiry) :
    Option.Rel Delivery.Twins (a.expire expiry).1 (b.expire expiry).1 ∧
      (a.expire expiry).2.Twins (b.expire expiry).2 := by
  rcases h.timeOut expiry with ⟨hclosed, hleft⟩
  unfold Engine.expire
  generalize a.timeOut expiry = x, b.timeOut expiry = y at hclosed hleft ⊢
  rcases x with ⟨closed, a'⟩
  rcases y with ⟨closed', b'⟩
  simp only at hclosed hleft ⊢
  cases hclosed with
  | none => exact ⟨.none, hleft⟩
  | some htwins =>
      rcases expiry.completion with _ | completion
      · exact ⟨.none, hleft.note _ _⟩
      · exact ⟨.some ⟨rfl, htwins, rfl⟩, hleft⟩

end Engine.Twins

namespace World.Twins

variable {w v : World}

/-- Twins were handed the same expiries. -/
theorem expiries (h : w.Twins v) : v.expiries = w.expiries := by
  have hevent : ∀ {a b : Event}, a.Twins b → b.expiries = a.expiries := by
    intro a b hab
    cases hab <;> rfl
  have hhistory := h.history
  unfold World.expiries
  generalize w.history = seen, v.history = seen' at hhistory ⊢
  induction hhistory with
  | nil => rfl
  | cons hab _ ih => rw [List.flatMap_cons, List.flatMap_cons, hevent hab, ih]

theorem next (h : w.Twins v) {a b : Engine} (engine : a.Twins b) {seen seen' : List Event}
    (hseen : List.Forall₂ Event.Twins seen seen') : (w.next a seen).Twins (v.next b seen') where
  engine := engine
  history := List.rel_append h.history hseen

/-- An offer keeps worlds twins under different policies and extras. -/
theorem offer (h : w.Twins v) (flow : UInt64) (frame : Frame) {policy policy' : Policy}
    (hpolicy : policy'.bare = policy.bare) (extras extras' : Extras) :
    (w.step (.offer flow frame policy extras)).Twins
      (v.step (.offer flow frame policy' extras')) := by
  rcases h.engine.offer flow frame hpolicy extras extras' with ⟨houtput, hleft⟩
  exact h.next hleft (.cons (.offered flow frame houtput) .nil)

/-- Storage may refuse whatever it likes, as long as it does so to both. -/
theorem refuse (h : w.Twins v) (outages : Outages) :
    (w.endure (.refuse outages)).Twins (v.endure (.refuse outages)) := by
  have hframes := h.engine.services.frames
  simp only [endure, hframes]
  refine h.next (h.engine.of_services ?_) .nil
  exact ⟨rfl, h.engine.services.timers⟩

theorem step (h : w.Twins v) (s : Step) : (w.step s).Twins (v.step s) := by
  cases s with
  | offer flow frame policy extras => exact h.offer flow frame rfl extras extras
  | flush flow =>
      rcases h.engine.flush flow with ⟨houtput, hleft⟩
      exact h.next hleft (.cons (.flushed flow houtput) .nil)
  | advance elapsed =>
      have htimers := h.engine.services.timers
      simp only [World.step, htimers]
      refine h.next (h.engine.of_services ?_) (.cons (.ranOut _) .nil)
      exact ⟨h.engine.services.frames, rfl⟩
  | deliver index =>
      simp only [World.step, h.expiries]
      rcases w.expiries[index]? with _ | expiry
      · exact h
      · exact h.next (h.engine.expire expiry).2
          (.cons (.delivered expiry (h.engine.timeOut expiry).1) .nil)
  | refuse store extend => exact h.refuse { store, extend }

/-- Whatever happens to twins, they are twins again, as long as it is the same but
    for the choices. -/
theorem endure (h : w.Twins v) {trial trial' : Trial} (htrial : trial'.bare = trial.bare) :
    (w.endure trial).Twins (v.endure trial') := by
  rcases Trial.cases_of_bare htrial with
    rfl | ⟨flow, frame, policy, policy', extras, extras', rfl, rfl, hpolicy⟩
  · rcases trial' with s | outages | timers
    · exact h.step s
    · exact h.refuse outages
    · refine h.next (h.engine.of_services ?_) .nil
      exact ⟨h.engine.services.frames, rfl⟩
  · exact h.offer flow frame hpolicy extras extras'

end World.Twins

/-- Runs of the same trials but for the choices hand out the same frames, say the
    same of them, and leave the same behind, but for the checksums of aggregates of
    several segments and for the books. Whoever is told of an expiry then is told the
    same too. -/
theorem twins_run (setup : Setup) (trials trials' : List Trial)
    (hsame : trials'.map Trial.bare = trials.map Trial.bare) :
    (Roster.run setup trials).world.Twins (Roster.run setup trials').world ∧
      ∀ expiry, Option.Rel Delivery.Twins
        ((Roster.run setup trials).world.engine.expire expiry).1
        ((Roster.run setup trials').world.engine.expire expiry).1 := by
  suffices h : (Roster.run setup trials).world.Twins (Roster.run setup trials').world from
    ⟨h, fun expiry => (h.engine.expire expiry).1⟩
  -- Trials are taken from the front, so the statement has to allow any twins.
  suffices h : ∀ r r' : Roster, r.world.Twins r'.world →
      (trials.foldl Roster.endure r).world.Twins (trials'.foldl Roster.endure r').world from
    h _ _ ⟨⟨fun _ => rfl, .refl _⟩, .nil⟩
  induction trials generalizing trials' with
  | nil =>
      rw [List.map_nil, List.map_eq_nil_iff] at hsame
      subst hsame
      exact fun _ _ h => h
  | cons trial trials ih =>
      rcases List.map_eq_cons_iff.mp hsame with ⟨trial', rest, rfl, htrial, hrest⟩
      exact fun r r' h => ih rest hrest (r.endure trial) (r'.endure trial') (h.endure htrial)

/-- One flow with segments merged, and one whose segment is lost with its timer and its
    frame, under a policy and with extras that are left open. -/
def bookkept (policy : Policy) (extras : Extras) : List Trial := [
  .step (.offer 7 (plainFrame 1 [1, 2]) policy extras),
  .step (.offer 7 (plainFrame 3 [3]) policy {}),
  .step (.offer 8 (plainFrame 1 [1, 2]) policy extras),
  .refuse { extend := [0], take := [1] },
  .step (.offer 8 (plainFrame 3 [3]) policy extras),
  .step (.flush 7),
  .retime (.ofPools []),
  .step (.offer 7 (plainFrame 4 [4]) policy extras)
]

/-- The books are kept, all of them, somewhere else. -/
def keenPolicy : Policy :=
  { plainPolicy with extendedStatistics := true, statistics := 0x100, metadata := 0x200 }

theorem twins_run_bookkept :
    (bookkept keenPolicy ⟨true, true⟩).map Trial.bare
        = (bookkept plainPolicy {}).map Trial.bare ∧
      (Roster.run {} (bookkept plainPolicy {})).world.Twins
        (Roster.run {} (bookkept keenPolicy ⟨true, true⟩)).world ∧
      ∀ expiry, Option.Rel Delivery.Twins
        ((Roster.run {} (bookkept plainPolicy {})).world.engine.expire expiry).1
        ((Roster.run {} (bookkept keenPolicy ⟨true, true⟩)).world.engine.expire expiry).1 :=
  ⟨rfl, twins_run {} (bookkept plainPolicy {}) (bookkept keenPolicy ⟨true, true⟩) rfl⟩

/-- What differs is the checksum of the aggregate of two segments. -/
example : (Roster.run {} (bookkept plainPolicy {})).world.history
    ≠ (Roster.run {} (bookkept keenPolicy ⟨true, true⟩)).world.history := by
  decide +kernel

end ReceiveOffload
